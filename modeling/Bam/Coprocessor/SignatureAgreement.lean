import Bam.Coprocessor.Guest

namespace Bam.Coprocessor

open Bytewise

/-!
# The two signature checks

`verify_ecdsa` of the coprocessor against `verifyECDSA` of the SDK, over one
recovery function with the recovery ids 0 to 3.
-/

/-- The libraries of both sides are the same functions where the SDK calls
its own: a signature the one parses, finds low and recovers, the other parses,
finds low and recovers to the same key. -/
structure LibrariesMatch
    (crypto : CryptoLibraries)
    (guest : GuestLibraries) : Prop extends
    LibrariesAgree crypto guest where
  recoversBack :
    ∀ compact recovery digest key,
      recovery = 0 ∨ recovery = 1 →
      guest.fromSlice compact = true →
      guest.normalizesS compact = false →
      guest.recoverFromPrehash digest compact recovery = some key →
      crypto.hasHighS compact = false ∧
        crypto.recoverPublicKey compact recovery digest = some key

/-- The recovery id a signature spells in its last byte. -/
def recoveryId (signature : Bytes) : Nat :=
  let v := (signature.getD 64 0).toNat
  if 27 ≤ v then v - 27 else v

/-- The address of an uncompressed public key. -/
def keyAddress
    (keccak256 : Bytes → Bytes32)
    (encoded : Bytes) : Address :=
  addressOfBytes ((bytes32Bytes (keccak256 (encoded.drop 1))).drop 12)

/-- The library finds both numbers of a signature in range and `s` low, and
recovers the key of the sender with the recovery id of the signature. -/
def RecoversTo
    (guest : GuestLibraries)
    (digest : Bytes32)
    (signature : Bytes)
    (sender : Address) : Prop :=
  guest.fromSlice (signature.take 64) = true ∧
    guest.normalizesS (signature.take 64) = false ∧
    ∃ encoded,
      guest.recoverFromPrehash digest (signature.take 64)
          (recoveryId signature) = some encoded ∧
        keyAddress guest.keccak256 encoded = sender

/-- The digest the coprocessor signs a message's fields under. -/
def messageDigest
    (guest : GuestLibraries)
    (message : BAMMessage)
    (contentTag : Bytes32)
    (chainId : UInt64) : Bytes32 :=
  eip712Digest guest.keccak256 (addressBytes message.sender) contentTag
    (UInt64.ofNat message.nonce) message.contents chainId

/-- The bytes of a recovered address are the sender's when the addresses are
the same. -/
theorem addressBytes_eq_iff
    {keccak256 : Bytes → Bytes32}
    {encoded : Bytes}
    {sender : Address} :
    (bytes32Bytes (keccak256 (encoded.drop 1))).drop 12 =
        addressBytes sender ↔
      keyAddress keccak256 encoded = sender := by
  have sized :
      ((bytes32Bytes (keccak256 (encoded.drop 1))).drop 12).length =
        20 := by
    rw [List.length_drop, bytes32Bytes, length_toBE]
  unfold keyAddress
  constructor
  · intro same
    rw [same, addressOfBytes_addressBytes]
  · intro same
    rw [← same, addressBytes_addressOfBytes sized]

/-- `ecrecover` takes every recovery id of the library. -/
theorem ecrecover_eq_some_iff
    {guest : GuestLibraries}
    {digest : Bytes32}
    {signature : Bytes}
    {sender : Address} :
    ecrecover guest digest signature = some (addressBytes sender) ↔
      recoveryId signature ≤ 3 ∧
        RecoversTo guest digest signature sender := by
  have sameId : (if 27 ≤ (signature.getD 64 0).toNat then
      (signature.getD 64 0).toNat - 27
      else (signature.getD 64 0).toNat) = recoveryId signature := rfl
  unfold ecrecover RecoversTo
  simp only [sameId]
  split
  · rename_i beyond
    simp [Nat.not_le.mpr beyond]
  rename_i inRange
  have within : recoveryId signature ≤ 3 := Nat.le_of_not_lt inRange
  split
  · rename_i rejected
    simp [rejected]
  rename_i parsed
  split
  · rename_i high
    simp [high]
  rename_i low
  simp only [within, Bool.eq_true_of_not_eq_false parsed,
    Bool.eq_false_of_not_eq_true low, true_and,
    Option.map_eq_some_iff, addressBytes_eq_iff]

/-- The coprocessor's check. -/
theorem verifiesEcdsa_iff
    {guest : GuestLibraries}
    {message : BAMMessage}
    {contentTag : Bytes32}
    {signature : Bytes}
    {chainId : UInt64} :
    verifiesEcdsa guest message contentTag signature chainId = true ↔
      recoveryId signature ≤ 3 ∧
        RecoversTo guest (messageDigest guest message contentTag chainId)
          signature message.sender := by
  rw [← ecrecover_eq_some_iff]
  unfold verifiesEcdsa verifyEcdsa messageDigest
  split
  · rename_i recovered isRecovered
    rw [isRecovered, decide_eq_true_iff, Option.some.injEq]
  · rename_i fails
    simp [fails]

/-- The SDK's check takes the recovery ids 0 and 1. -/
theorem verifyECDSA_iff
    {crypto : CryptoLibraries}
    {guest : GuestLibraries}
    (same : LibrariesMatch crypto guest)
    {message : BAMMessage}
    {contentTag : Bytes32}
    {signature : Bytes}
    {chainId : UInt64}
    (inRange : message.nonce ≤ MAX_NONCE)
    (sized : signature.length = 65) :
    verifyECDSA crypto message contentTag signature message.sender
        chainId.toNat = true ↔
      recoveryId signature ≤ 1 ∧
        RecoversTo guest (messageDigest guest message contentTag chainId)
          signature message.sender := by
  have digest :=
    same.hashTypedData message.sender contentTag
      (UInt64.ofNat message.nonce) chainId message.contents
  rw [toNat_ofNat_nonce inRange] at digest
  have sameId : (if 27 ≤ (signature.getD 64 0).toNat then
      (signature.getD 64 0).toNat - 27
      else (signature.getD 64 0).toNat) = recoveryId signature := rfl
  constructor
  · intro verified
    have accepted := verifiesEcdsa_iff.mp
      (verifiesEcdsa_of_verifyECDSA same.toLibrariesAgree inRange verified)
    refine ⟨?_, accepted.2⟩
    unfold verifyECDSA at verified
    simp only [sameId] at verified
    by_contra beyond
    rw [if_neg (not_not.mpr sized), if_pos (by omega)] at verified
    cases verified
  · rintro ⟨isBit, parsed, low, encoded, recovered, isSender⟩
    have bit : recoveryId signature = 0 ∨ recoveryId signature = 1 := by
      omega
    obtain ⟨lowS, key⟩ :=
      same.recoversBack _ _ _ _ bit parsed low recovered
    unfold verifyECDSA computeECDSADigest
    rw [digest]
    unfold messageDigest at key
    simp only [sameId]
    rw [if_neg (not_not.mpr sized), if_neg (by omega), lowS,
      if_neg (by decide), key]
    unfold keyAddress at isSender
    rw [same.keccak256] at isSender
    exact decide_eq_true isSender

/-- The two checks agree on a message exactly when its signature does not
recover the sender under one of the ids 2 and 3, which only the coprocessor
takes. -/
theorem verifyEcdsa_agrees_iff
    {crypto : CryptoLibraries}
    {guest : GuestLibraries}
    (same : LibrariesMatch crypto guest)
    (message : BAMMessage)
    (contentTag : Bytes32)
    (signature : Bytes)
    (chainId : UInt64)
    (inRange : message.nonce ≤ MAX_NONCE)
    (sized : signature.length = 65) :
    verifiesEcdsa guest message contentTag signature chainId =
        verifyECDSA crypto message contentTag signature message.sender
          chainId.toNat ↔
      (recoveryId signature = 2 ∨ recoveryId signature = 3 →
        ¬ RecoversTo guest
          (messageDigest guest message contentTag chainId) signature
          message.sender) := by
  rw [Bool.eq_iff_iff, verifiesEcdsa_iff,
    verifyECDSA_iff same inRange sized]
  constructor
  · intro agree high recovers
    have isBit := (agree.mp ⟨by omega, recovers⟩).1
    omega
  · intro condition
    constructor
    · rintro ⟨within, recovers⟩
      refine ⟨?_, recovers⟩
      by_contra beyond
      exact condition (by omega) recovers
    · rintro ⟨isBit, recovers⟩
      exact ⟨by omega, recovers⟩

/-- A stand-in for keccak: the last word of the input. -/
def lastWord (bytes : Bytes) : Bytes32 :=
  BitVec.ofNat 256 (ofBE bytes)

/-- The key `r = 7`, `s = 1` recovers to under the id 2 and the digest 0: the
curve has a point with the abscissa `7 + SECP256K1_N` and none with 7. -/
def wrappedKey : Bytes :=
  0x04 ::
    toBE 32
      0x88a33382c38af21e2efc304200f622f0b4b3bcf0f27c447dbd3d9309a8cad025 ++
    toBE 32
      0x3beaffefdc1f246b05c95483c2244cbe47991e39efba4e1dcf7616be20687f4f

def recoverWrapped
    (digest : Bytes32)
    (compact : Bytes)
    (recovery : Nat) : Option Bytes :=
  if digest = 0 ∧ compact = toBE 32 7 ++ toBE 32 1 ∧ recovery = 2 then
    some wrappedKey
  else none

def wrappingGuest : GuestLibraries where
  keccak256 := lastWord
  sha256 := fun _ => []
  fromSlice := inOrder
  normalizesS := highS
  recoverFromPrehash := recoverWrapped
  verifyBlobKzgProof := fun _ _ _ => none

def wrappingCrypto : CryptoLibraries where
  keccak256 := lastWord
  hashTypedData := fun data =>
    eip712Digest lastWord (addressBytes data.sender) data.contentTag
      (UInt64.ofNat data.nonce) data.contents (UInt64.ofNat data.chainId)
  hasHighS := highS
  recoverPublicKey := fun compact recovery digest =>
    if inOrder compact then recoverWrapped digest compact recovery
    else none

theorem wrapping_match : LibrariesMatch wrappingCrypto wrappingGuest where
  keccak256 := rfl
  hashTypedData := by
    intro sender contentTag nonce chainId contents
    simp [wrappingCrypto, wrappingGuest]
  recovers := by
    intro compact recovery digest key _ lowS isKey
    simp only [wrappingCrypto, Option.ite_none_right_eq_some] at isKey
    exact ⟨isKey.1, lowS, isKey.2⟩
  recoversBack := by
    intro compact recovery digest key _ parsed low isKey
    refine ⟨low, ?_⟩
    simp only [wrappingCrypto]
    exact (if_pos parsed).trans isKey

/-- A message of the address the key belongs to. -/
def wrappedMessage : BAMMessage where
  sender := keyAddress lastWord wrappedKey
  nonce := 0
  contents := []

/-- `v = 29`: the recovery id 2. -/
def wrappedSignature : Bytes :=
  toBE 32 7 ++ toBE 32 1 ++ [29]

/-- The coprocessor certifies a signature the SDK rejects. -/
theorem verifyEcdsa_wrapped :
    LibrariesMatch wrappingCrypto wrappingGuest ∧
      wrappedMessage.nonce ≤ MAX_NONCE ∧
      wrappedSignature.length = 65 ∧
      verifiesEcdsa wrappingGuest wrappedMessage 0 wrappedSignature 1 =
        true ∧
      verifyECDSA wrappingCrypto wrappedMessage 0 wrappedSignature
        wrappedMessage.sender (1 : UInt64).toNat = false := by
  refine ⟨wrapping_match, by decide, by decide, ?_, ?_⟩
  · decide +kernel
  · decide +kernel

theorem sample_match : LibrariesMatch sampleCrypto sampleGuest where
  toLibrariesAgree := sample_librariesAgree
  recoversBack := by
    intro compact recovery digest key _ parsed low isKey
    refine ⟨low, ?_⟩
    simp only [sampleCrypto]
    exact (if_pos parsed).trans isKey

/-- Both sides accept a message its sender signed with `v = 27`. -/
theorem verifyEcdsa_agrees_iff_plain :
    verifiesEcdsa sampleGuest sampleMessage 5 sampleSignature 1 = true ∧
      verifiesEcdsa sampleGuest sampleMessage 5 sampleSignature 1 =
        verifyECDSA sampleCrypto sampleMessage 5 sampleSignature
          sampleMessage.sender (1 : UInt64).toNat := by
  refine ⟨by decide +kernel, ?_⟩
  apply (verifyEcdsa_agrees_iff sample_match sampleMessage 5
    sampleSignature 1 (by decide) (by decide)).mpr
  intro high
  exfalso
  revert high
  decide

end Bam.Coprocessor
