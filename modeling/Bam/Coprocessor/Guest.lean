import Bam.Coprocessor.Decode
import Bam.Sdk.Signatures

namespace Bam.Coprocessor

open Bytewise
open Usize

/-!
# The guest program

The circuit certifies one message of one blob: it checks the commitment against
the versioned hash and the blob against the commitment, decodes the segment,
checks the signature of the message and commits its hash.  A failed assertion
is a panic, and a panic certifies nothing.
-/

/-- The cryptographic crates the coprocessor links. -/
structure GuestLibraries where
  keccak256 : Bytes → Bytes32
  sha256 : Bytes → Bytes
  /-- `K256Sig::from_slice` accepts the bytes. -/
  fromSlice : Bytes → Bool
  /-- `normalize_s` lowers the signature. -/
  normalizesS : Bytes → Bool
  /-- `VerifyingKey::recover_from_prehash`, as an uncompressed point. -/
  recoverFromPrehash : Bytes32 → Bytes → Nat → Option Bytes
  /-- `KzgProof::verify_blob_kzg_proof`; `none` where it fails. -/
  verifyBlobKzgProof : Bytes → Bytes → Bytes → Option Bool

/-- The bytes of a string literal. -/
def ascii (text : String) : Bytes :=
  text.toUTF8.data.toList

/-- `eip712_digest`. -/
def eip712Digest
    (keccak256 : Bytes → Bytes32)
    (sender : Bytes)
    (contentTag : Bytes32)
    (nonce : UInt64)
    (contents : Bytes)
    (chainId : UInt64) : Bytes32 :=
  let domainTypehash :=
    keccak256 (ascii
      "EIP712Domain(string name,string version,uint256 chainId)")
  let domainData :=
    bytes32Bytes domainTypehash ++ bytes32Bytes (keccak256 (ascii "BAM")) ++
      bytes32Bytes (keccak256 (ascii "1")) ++
      (List.replicate 24 0x00 ++ toBE 8 chainId.toNat)
  let structTypehash :=
    keccak256 (ascii
      "BAMMessage(address sender,bytes32 contentTag,uint64 nonce,bytes contents)")
  let structData :=
    bytes32Bytes structTypehash ++ (List.replicate 12 0x00 ++ sender) ++
      bytes32Bytes contentTag ++
      (List.replicate 24 0x00 ++ toBE 8 nonce.toNat) ++
      bytes32Bytes (keccak256 contents)
  keccak256
    ([0x19, 0x01] ++ bytes32Bytes (keccak256 domainData) ++
      bytes32Bytes (keccak256 structData))

/-- `ecrecover`, over a signature of 65 bytes. -/
def ecrecover
    (libraries : GuestLibraries)
    (digest : Bytes32)
    (sigBytes : Bytes) : Option Bytes :=
  let v := (sigBytes.getD 64 0).toNat
  let recoveryId := if 27 ≤ v then v - 27 else v
  let compact := sigBytes.take 64
  if 3 < recoveryId then none
  else if libraries.fromSlice compact = false then none
  else if libraries.normalizesS compact then none
  else
    (libraries.recoverFromPrehash digest compact recoveryId).map
      fun encoded =>
        (bytes32Bytes (libraries.keccak256 (encoded.drop 1))).drop 12

/-- `verify_ecdsa`. -/
def verifyEcdsa
    (libraries : GuestLibraries)
    (sender : Bytes)
    (contentTag : Bytes32)
    (nonce : UInt64)
    (contents sig : Bytes)
    (chainId : UInt64) : Bool :=
  match ecrecover libraries
      (eip712Digest libraries.keccak256 sender contentTag nonce contents
        chainId) sig with
  | some recovered => recovered = sender
  | none => false

/-- `compute_message_hash`. -/
def computeMessageHash
    (keccak256 : Bytes → Bytes32)
    (sender : Bytes)
    (contentTag : Bytes32)
    (nonce : UInt64)
    (contents : Bytes) : Bytes32 :=
  keccak256
    (sender ++ bytes32Bytes contentTag ++ toBE 8 nonce.toNat ++ contents)

/-- What the host supplies for one blob. -/
structure BlobInput where
  versionedHash : Bytes32
  commitment : Bytes
  openingProof : Bytes
  contentTag : Bytes32
  decoder : Address
  sigRegistry : Address
  blockNumber : UInt64
  txIndex : UInt32
  startFE : UInt16
  endFE : UInt16
  blobBytes : Bytes
  deriving Repr, DecidableEq

/-- What the guest commits. -/
structure PublicValues where
  chainId : UInt64
  versionedHash : Bytes32
  contentTag : Bytes32
  startFE : UInt16
  endFE : UInt16
  blockNumber : UInt64
  txIndex : UInt32
  msgIndex : UInt32
  sender : Bytes
  nonce : UInt64
  messageHash : Bytes32
  deriving Repr, DecidableEq

/-- The length of an EIP-4844 blob. -/
def BLOB_LEN : Nat := 131072

/-- The assertions of the guest before it reads the segment. -/
def assertInput
    (libraries : GuestLibraries)
    (blob : BlobInput) : Bool :=
  blob.decoder = 0 && blob.sigRegistry = 0 &&
    blob.commitment.length = 48 && blob.openingProof.length = 48 &&
    (bytes32Bytes blob.versionedHash).getD 0 0 = 0x01 &&
    (bytes32Bytes blob.versionedHash).drop 1 =
      (libraries.sha256 blob.commitment).drop 1 &&
    blob.blobBytes.length = BLOB_LEN &&
    libraries.verifyBlobKzgProof blob.blobBytes blob.commitment
      blob.openingProof = some true

/-- The public values committed for a message of a blob. -/
def BlobInput.publicValues
    (blob : BlobInput)
    (libraries : GuestLibraries)
    (chainId : UInt64)
    (msgIndex : UInt32)
    (msg : BamMessage) : PublicValues where
  chainId := chainId
  versionedHash := blob.versionedHash
  contentTag := blob.contentTag
  startFE := blob.startFE
  endFE := blob.endFE
  blockNumber := blob.blockNumber
  txIndex := blob.txIndex
  msgIndex := msgIndex
  sender := msg.sender
  nonce := msg.nonce
  messageHash :=
    computeMessageHash libraries.keccak256 msg.sender blob.contentTag
      msg.nonce msg.contents

/-- The guest's `main`; `none` where it panics. -/
def guestMain
    (libraries : GuestLibraries)
    (target : Target)
    (chainId : UInt64)
    (blob : BlobInput)
    (msgIndex : UInt32) : Option PublicValues :=
  if assertInput libraries blob = false then none
  else
    match extractSegmentBytes target blob.blobBytes blob.startFE
        blob.endFE with
    | .error _ => none
    | .ok segment =>
        match decodeBamPayload target segment with
        | .error _ => none
        | .ok (messages, sigs) =>
            match messages[msgIndex.toNat]?, sigs[msgIndex.toNat]? with
            | some msg, some sig =>
                if verifyEcdsa libraries msg.sender blob.contentTag
                    msg.nonce msg.contents sig chainId then
                  some (blob.publicValues libraries chainId msgIndex msg)
                else none
            | _, _ => none

/-- A message the guest finds at an index of a segment. -/
def Finds
    (target : Target)
    (segment : Bytes)
    (msgIndex : Nat)
    (msg : BamMessage)
    (sig : Bytes) : Prop :=
  ∃ messages sigs,
    decodeBamPayload target segment = .ok (messages, sigs) ∧
      messages[msgIndex]? = some msg ∧ sigs[msgIndex]? = some sig

/-- The guest certifies exactly a signed message it finds. -/
theorem guestMain_eq_some_iff
    {libraries : GuestLibraries}
    {target : Target}
    {chainId : UInt64}
    {blob : BlobInput}
    {msgIndex : UInt32}
    {values : PublicValues} :
    guestMain libraries target chainId blob msgIndex = some values ↔
      assertInput libraries blob = true ∧
        ∃ segment msg sig,
          extractSegmentBytes target blob.blobBytes blob.startFE
              blob.endFE = .ok segment ∧
            Finds target segment msgIndex.toNat msg sig ∧
            verifyEcdsa libraries msg.sender blob.contentTag msg.nonce
              msg.contents sig chainId = true ∧
            values =
              blob.publicValues libraries chainId msgIndex msg := by
  unfold guestMain Finds
  cases asserted : assertInput libraries blob with
  | false =>
      simp
  | true =>
      rw [if_neg (by decide)]
      cases extracted : extractSegmentBytes target blob.blobBytes
          blob.startFE blob.endFE with
      | error failure =>
          simp
      | ok segment =>
          cases isDecoded : decodeBamPayload target segment with
          | error failure =>
              simp [isDecoded]
          | ok decoded =>
              obtain ⟨messages, sigs⟩ := decoded
              cases isMsg : messages[msgIndex.toNat]? with
              | none =>
                  simp [isDecoded, isMsg]
              | some msg =>
                  cases isSig : sigs[msgIndex.toNat]? with
                  | none =>
                      simp [isDecoded, isMsg, isSig]
                  | some sig =>
                      simp only [isDecoded, isMsg, isSig,
                        Except.ok.injEq, Option.ite_none_right_eq_some,
                        Option.some.injEq]
                      constructor
                      · rintro ⟨verified, rfl⟩
                        exact ⟨trivial, segment, msg, sig, rfl,
                          ⟨messages, sigs, isDecoded, isMsg, isSig⟩,
                          verified, rfl⟩
                      · rintro ⟨-, _, found, sigFound, rfl,
                          ⟨_, _, isSame, isFound, isSigFound⟩, verified,
                          rfl⟩
                        rw [isDecoded] at isSame
                        cases isSame
                        rw [isMsg] at isFound
                        rw [isSig] at isSigFound
                        cases isFound
                        cases isSigFound
                        exact ⟨verified, rfl⟩

/-- The SDK reads a message of an uncompressed batch at an index. -/
def CarriesAt
    (decompress : Bytes → Except BatchError Bytes)
    (segment : Bytes)
    (index : Nat)
    (message : BAMMessage)
    (signature : Bytes) : Prop :=
  segment.getD 1 0 = CODEC_NONE ∧
    ∃ decoded,
      decodeBatch decompress segment = .ok decoded ∧
        decoded.messages[index]? = some message ∧
        decoded.signatures[index]? = some signature

section Reading

variable {target : Target}

/-- A slice has the length of its range. -/
theorem length_of_slice
    {Error : Type}
    {bytes part : Bytes}
    {start stop : Nat}
    (sliced :
      (slice bytes start stop : Except (Failure Error) Bytes) =
        .ok part) :
    part.length = stop - start := by
  unfold slice at sliced
  split at sliced
  · rename_i inside
    cases sliced
    rw [List.length_take, List.length_drop]
    omega
  · cases sliced

/-- A record has a sender of twenty bytes. -/
theorem length_sender_decodeRecord
    {payload sig : Bytes}
    {o next : Nat}
    {message : BamMessage}
    (read :
      decodeRecord target payload o = .ok ((message, sig), next)) :
    message.sender.length = 20 := by
  unfold decodeRecord at read
  simp only [bind, Except.bind, pure, Except.pure, throw, throwThe,
    MonadExceptOf.throw] at read
  split at read
  · cases read
  split at read
  · cases read
  split at read
  · cases read
  rename_i sender isSender
  have sized := length_of_slice isSender
  repeat' split at read
  all_goals cases read
  exact sized.trans (Nat.add_sub_cancel_left o 20)

/-- The guest finds messages with senders of twenty bytes. -/
theorem length_sender_decodeLoop
    {payload : Bytes}
    {left o : Nat}
    {messages : List BamMessage}
    {sigs : List Bytes}
    (read : decodeLoop target payload left o = .ok (messages, sigs)) :
    ∀ message ∈ messages, message.sender.length = 20 := by
  induction left generalizing o messages sigs with
  | zero =>
      unfold decodeLoop at read
      split at read
      · cases read
      · cases read
        simp
  | succ left inductionHypothesis =>
      unfold decodeLoop at read
      split at read
      · cases read
      · rename_i message sig next isRecord
        split at read
        · cases read
        · rename_i later laterSigs isLater
          cases read
          intro other member
          rcases List.mem_cons.mp member with rfl | inLater
          · exact length_sender_decodeRecord isRecord
          · exact inductionHypothesis isLater other inLater

/-- What an accepted payload looks like. -/
theorem decodeBamPayload_ok
    {data : Bytes}
    {messages : List BamMessage}
    {sigs : List Bytes}
    (read : decodeBamPayload target data = .ok (messages, sigs)) :
    data.getD 1 0 = CODEC_NONE ∧
      ∀ message ∈ messages, message.sender.length = 20 := by
  unfold decodeBamPayload at read
  simp only [bind, Except.bind, throw, throwThe,
    MonadExceptOf.throw] at read
  split at read
  · cases read
  split at read
  · cases read
  split at read
  · cases read
  rename_i plain
  refine ⟨not_not.mp plain, ?_⟩
  repeat' split at read
  all_goals first | cases read | skip
  exact length_sender_decodeLoop read

/-- The guest finds at an index what the SDK reads there. -/
theorem finds_iff_carriesAt
    (decompress : Bytes → Except BatchError Bytes)
    {segment : Bytes}
    (fits : segment.length < target.maxSlice)
    (index : Nat)
    (message : BAMMessage)
    (signature : Bytes) :
    (∃ msg, Finds target segment index msg signature ∧
        msg.toBAMMessage = message) ↔
      CarriesAt decompress segment index message signature := by
  have agrees :
      segment.getD 1 0 = CODEC_NONE →
        asBatch (decodeBamPayload target segment) =
          acceptedBatch (decodeBatch decompress segment) :=
    decodeBamPayload_agrees decompress ⟨segment, fits⟩
  constructor
  · rintro ⟨msg, ⟨messages, sigs, isDecoded, isMsg, isSig⟩, rfl⟩
    obtain ⟨plain, -⟩ := decodeBamPayload_ok isDecoded
    have same := agrees plain
    rw [isDecoded] at same
    refine ⟨plain, ?_⟩
    cases isBatch : decodeBatch decompress segment with
    | error error =>
        rw [isBatch] at same
        cases same
    | ok decoded =>
        rw [isBatch] at same
        simp only [asBatch, acceptedBatch, Option.some.injEq,
          Prod.mk.injEq] at same
        refine ⟨decoded, rfl, ?_, ?_⟩
        · rw [← same.1, List.getElem?_map, isMsg]
          rfl
        · rw [← same.2]
          exact isSig
  · rintro ⟨plain, decoded, isBatch, isMessage, isSignature⟩
    have same := agrees plain
    rw [isBatch] at same
    cases isDecoded : decodeBamPayload target segment with
    | error failure =>
        rw [isDecoded] at same
        cases same
    | ok read =>
        obtain ⟨messages, sigs⟩ := read
        rw [isDecoded] at same
        simp only [asBatch, acceptedBatch, Option.some.injEq,
          Prod.mk.injEq] at same
        rw [← same.1, List.getElem?_map, Option.map_eq_some_iff]
          at isMessage
        obtain ⟨msg, isMsg, isSame⟩ := isMessage
        exact ⟨msg, ⟨messages, sigs, isDecoded, isMsg,
          same.2 ▸ isSignature⟩, isSame⟩

/-- The bytes of a found sender are those of its address. -/
theorem Finds.sender
    {segment : Bytes}
    {index : Nat}
    {msg : BamMessage}
    {sig : Bytes}
    (finds : Finds target segment index msg sig) :
    addressBytes msg.toBAMMessage.sender = msg.sender := by
  obtain ⟨messages, sigs, isDecoded, isMsg, -⟩ := finds
  obtain ⟨-, sized⟩ := decodeBamPayload_ok isDecoded
  exact addressBytes_addressOfBytes
    (sized msg (List.mem_of_getElem? isMsg))

end Reading

/-- `verify_ecdsa` of a message as the SDK has it. -/
def verifiesEcdsa
    (guest : GuestLibraries)
    (message : BAMMessage)
    (contentTag : Bytes32)
    (signature : Bytes)
    (chainId : UInt64) : Bool :=
  verifyEcdsa guest (addressBytes message.sender) contentTag
    (UInt64.ofNat message.nonce) message.contents signature chainId

/-- A found message is verified as the SDK has it. -/
theorem Finds.verifies
    {target : Target}
    {segment : Bytes}
    {index : Nat}
    {msg : BamMessage}
    {sig : Bytes}
    (finds : Finds target segment index msg sig)
    (guest : GuestLibraries)
    (contentTag : Bytes32)
    (chainId : UInt64) :
    verifiesEcdsa guest msg.toBAMMessage contentTag sig chainId =
      verifyEcdsa guest msg.sender contentTag msg.nonce msg.contents sig
        chainId := by
  have isNonce :
      UInt64.ofNat msg.toBAMMessage.nonce = msg.nonce :=
    UInt64.ofNat_toNat
  have isContents : msg.toBAMMessage.contents = msg.contents :=
    rfl
  rw [verifiesEcdsa, finds.sender, isNonce, isContents]

/-- A found message has the hash the SDK gives it. -/
theorem Finds.messageHash
    {target : Target}
    {segment : Bytes}
    {index : Nat}
    {msg : BamMessage}
    {sig : Bytes}
    (finds : Finds target segment index msg sig)
    (keccak256 : Bytes → Bytes32)
    (contentTag : Bytes32) :
    Bam.computeMessageHash keccak256 msg.toBAMMessage.sender contentTag
        msg.toBAMMessage.nonce msg.toBAMMessage.contents =
      some (computeMessageHash keccak256 msg.sender contentTag msg.nonce
        msg.contents) := by
  have isNonce : msg.toBAMMessage.nonce = msg.nonce.toNat :=
    rfl
  have isContents : msg.toBAMMessage.contents = msg.contents :=
    rfl
  have inRange : ¬MAX_NONCE < msg.nonce.toNat :=
    Nat.not_lt.mpr (Nat.le_of_lt_succ msg.nonce.toNat_lt)
  rw [Bam.computeMessageHash, finds.sender, isNonce, isContents,
    if_neg inRange, computeMessageHash]

/-- What the crates of the coprocessor share with the libraries of the SDK:
the same hash, the typed-data hash of the standard, and the same public keys of
low-s signatures. -/
structure LibrariesAgree
    (crypto : CryptoLibraries)
    (guest : GuestLibraries) : Prop where
  keccak256 : guest.keccak256 = crypto.keccak256
  hashTypedData :
    ∀ (sender : Address) (contentTag : Bytes32) (nonce chainId : UInt64)
      (contents : Bytes),
      crypto.hashTypedData {
          name := EIP712_DOMAIN_NAME
          version := EIP712_DOMAIN_VERSION
          chainId := chainId.toNat
          sender := sender
          contentTag := contentTag
          nonce := nonce.toNat
          contents := contents } =
        eip712Digest guest.keccak256 (addressBytes sender) contentTag
          nonce contents chainId
  recovers :
    ∀ compact recovery digest key,
      recovery = 0 ∨ recovery = 1 →
      crypto.hasHighS compact = false →
      crypto.recoverPublicKey compact recovery digest = some key →
      guest.fromSlice compact = true ∧
        guest.normalizesS compact = false ∧
        guest.recoverFromPrehash digest compact recovery = some key

/-- A number that fits a word is the word's. -/
theorem toNat_ofNat_nonce
    {nonce : Nat}
    (inRange : nonce ≤ MAX_NONCE) :
    (UInt64.ofNat nonce).toNat = nonce := by
  rw [UInt64.toNat_ofNat', Nat.mod_eq_of_lt]
  exact Nat.lt_succ_of_le inRange

/-- The coprocessor accepts every signature the SDK accepts. -/
theorem verifiesEcdsa_of_verifyECDSA
    {crypto : CryptoLibraries}
    {guest : GuestLibraries}
    (agree : LibrariesAgree crypto guest)
    {message : BAMMessage}
    {contentTag : Bytes32}
    {signature : Bytes}
    {chainId : UInt64}
    (inRange : message.nonce ≤ MAX_NONCE)
    (verified :
      verifyECDSA crypto message contentTag signature message.sender
        chainId.toNat = true) :
    verifiesEcdsa guest message contentTag signature chainId = true := by
  have digest :=
    agree.hashTypedData message.sender contentTag
      (UInt64.ofNat message.nonce) chainId message.contents
  rw [toNat_ofNat_nonce inRange] at digest
  unfold verifyECDSA computeECDSADigest at verified
  rw [digest] at verified
  split at verified
  · cases verified
  dsimp only at verified
  unfold verifiesEcdsa verifyEcdsa ecrecover
  dsimp only
  generalize eip712Digest guest.keccak256 _ _ _ _ _ = digested
    at verified ⊢
  generalize (if 27 ≤ (signature.getD 64 0).toNat then
    (signature.getD 64 0).toNat - 27
    else (signature.getD 64 0).toNat) = recovery at verified ⊢
  split at verified
  · cases verified
  rename_i isRecovery
  have isBit : recovery = 0 ∨ recovery = 1 := by omega
  split at verified
  · cases verified
  rename_i lowS
  split at verified
  · cases verified
  rename_i key isKey
  obtain ⟨isSlice, isNormal, isRecovered⟩ :=
    agree.recovers _ _ _ _ isBit (Bool.eq_false_iff.mpr lowS) isKey
  have sized :
      ((bytes32Bytes (crypto.keccak256 (key.drop 1))).drop 12).length =
        20 := by
    rw [List.length_drop, bytes32Bytes, length_toBE]
  rw [if_neg (by omega), isSlice, if_neg (by decide), isNormal,
    if_neg (by decide), isRecovered]
  simp only [Option.map_some, agree.keccak256, decide_eq_true_eq]
  rw [← of_decide_eq_true verified, addressBytes_addressOfBytes sized]

/-- The order of secp256k1. -/
def SECP256K1_N : Nat :=
  0xfffffffffffffffffffffffffffffffebaaedce6af48a03bbfd25e8cd0364141

/-- Both numbers of a compact signature are between 1 and the order. -/
def inOrder (compact : Bytes) : Bool :=
  let r := ofBE (compact.take 32)
  let s := ofBE (compact.drop 32)
  0 < r ∧ r < SECP256K1_N ∧ 0 < s ∧ s < SECP256K1_N

/-- The upper half of the order. -/
def highS (compact : Bytes) : Bool :=
  SECP256K1_N / 2 < ofBE (compact.drop 32)

/-- The public key of the secret 7. -/
def sampleKey : Bytes :=
  0x04 ::
    toBE 32
      0x5cbdf0646e5db4eaa398f365f2ea7a0e3d419b7e0330e39ce92bddedcac4f9bc ++
    toBE 32
      0x6aebca40ba255960a3178d6d861a54dba813d0b813fde7b5a5082628087264da

/-- A message of the address the key belongs to. -/
def sampleMessage : BAMMessage where
  sender := 0xd41c057fd1c78805aac12b0a94a405c0461a6fbb
  nonce := 0
  contents := ascii "hi"

/-- The digest of the message under tag 5 and chain 1. -/
def sampleDigest : Bytes32 :=
  0x63ff70d4c45c0a3d7fc5c5c26a71f0c7af23302b7e8967bfea21fb8557df9931

/-- Its signature by the key. -/
def sampleSignature : Bytes :=
  toBE 32
      0xd01115d548e7561b15c38f004d734633687cf4419620095bc5b0f47070afe85a ++
    toBE 32
      0x68f614872fc6b795bdfd716f9f48985034e9cd543e8f1a1be901731f0b232783 ++
    [27]

/-- The encoded batch of the message. -/
def sampleEncoded : EncodedBatch where
  data :=
    [0x02, 0x00, 0, 0, 0, 1, 0, 0, 0, 99] ++
      encodeRecord sampleMessage sampleSignature
  messageCount := 1
  codec := .none
  size := 109

def sampleBlob : Bytes :=
  payloadBlob sampleEncoded.data

/-- The commitment to the blob, under a setup of the secret 1337. -/
def sampleCommitment : Bytes :=
  toBE 48
    0xab7a02207f5138b94595b9ba443e17d148ffbe630ea8b3a1c5848821050a97f4b8b82d00d139c20a60427433210b900b

/-- The opening of the blob at its challenge, under the same setup. -/
def sampleOpening : Bytes :=
  toBE 48
    0xb5c5399c57943aec5d03e467ec3ec2da4bbab2de7913861f92b19be76f86415f75665b783db02aa8473a2001ef86bd43

def sampleVersionedHash : Bytes32 :=
  0x01c53036bb30c7effab063b94002d4c3ccbbc443834d45406a693930e2bf8c96

/-- The hashes of the strings that signing and certifying the message hash. -/
def sampleHashes : List (Bytes × Bytes32) :=
  let domainType :=
    0xc2f8787176b8ac6bf7215b4adcc1e069bf4ab82d9ab1df05a57a91d425935b6e
  let name :=
    0x04b06dce9db63b6363c97f71c17d3f02f5112ce66f37ee21313da0b246da9e7c
  let version :=
    0xc89efdaa54c0f20c7adf612882df0950f5a951637e0307cdcb4c672f298b8bc6
  let domain :=
    0x99b13115846084a3105d7fa829f327607af14b61fae410c350d6fed9a0dfe31c
  let messageType :=
    0x47b07ccb6db8fc6fff59bfe7e755bc6e4cf7b6dd9653644cf6bb34b1bcfca720
  let contents :=
    0x7624778dedc75f8b322b9fa1632a610d40b85e106c7d9bf0e743a9ce291b9c6f
  let message :=
    0x8e5f2e84526ca6ebffa4cfa09163c2b340da8a5326296660d036c301f4bbcc20
  let sender := addressBytes sampleMessage.sender
  [(ascii "EIP712Domain(string name,string version,uint256 chainId)",
      domainType),
    (ascii "BAM", name),
    (ascii "1", version),
    (bytes32Bytes domainType ++ bytes32Bytes name ++
        bytes32Bytes version ++ toBE 32 1,
      domain),
    (ascii
        "BAMMessage(address sender,bytes32 contentTag,uint64 nonce,bytes contents)",
      messageType),
    (sampleMessage.contents, contents),
    (bytes32Bytes messageType ++ (List.replicate 12 0 ++ sender) ++
        toBE 32 5 ++ toBE 32 0 ++ bytes32Bytes contents,
      message),
    ([0x19, 0x01] ++ bytes32Bytes domain ++ bytes32Bytes message,
      sampleDigest),
    (sampleKey.drop 1,
      0x73f2a22d0902cd8d5c90937dd41c057fd1c78805aac12b0a94a405c0461a6fbb),
    (sender ++ toBE 32 5 ++ toBE 8 0 ++ sampleMessage.contents,
      0x83042298d53f682a9e9861ce05cf81d46a972bc8daf5f9db34f7148d063ff279),
    (sender ++ toBE 32 5 ++ toBE 8 0 ++ bytes32Bytes sampleVersionedHash,
      0x2c8708e9556cc00323f7cfe672def04b3ba7826266499112df8cb0c31b99a655),
    (toBE 20 8 ++ toBE 32 5 ++ toBE 8 0 ++ sampleMessage.contents,
      0x81e10beb913c474a9b3733c6dc438db253f183492c2419775a4a4e47dc70b5d0)]

def sampleKeccak (bytes : Bytes) : Bytes32 :=
  (sampleHashes.lookup bytes).getD 0

def sampleRecover
    (digest : Bytes32)
    (compact : Bytes)
    (recovery : Nat) : Option Bytes :=
  if digest = sampleDigest ∧ compact = sampleSignature.take 64 ∧
      recovery = 0 then
    some sampleKey
  else none

def sampleSha256 (bytes : Bytes) : Bytes :=
  if bytes = sampleCommitment then
    toBE 32
      0x82c53036bb30c7effab063b94002d4c3ccbbc443834d45406a693930e2bf8c96
  else []

/-- The libraries of the SDK, on the message. -/
def sampleCrypto : CryptoLibraries where
  keccak256 := sampleKeccak
  hashTypedData := fun data =>
    eip712Digest sampleKeccak (addressBytes data.sender) data.contentTag
      (UInt64.ofNat data.nonce) data.contents (UInt64.ofNat data.chainId)
  hasHighS := highS
  recoverPublicKey := fun compact recovery digest =>
    if inOrder compact then sampleRecover digest compact recovery
    else none

/-- The crates of the guest, on the message and its blob. -/
def sampleGuest : GuestLibraries where
  keccak256 := sampleKeccak
  sha256 := sampleSha256
  fromSlice := inOrder
  normalizesS := highS
  recoverFromPrehash := sampleRecover
  verifyBlobKzgProof := fun blob commitment proof =>
    if blob = sampleBlob ∧ commitment = sampleCommitment ∧
        proof = sampleOpening then
      some true
    else none

theorem sample_librariesAgree :
    LibrariesAgree sampleCrypto sampleGuest where
  keccak256 := rfl
  hashTypedData := by
    intro sender contentTag nonce chainId contents
    simp [sampleCrypto, sampleGuest]
  recovers := by
    intro compact recovery digest key _ lowS isKey
    simp only [sampleCrypto, Option.ite_none_right_eq_some] at isKey
    exact ⟨isKey.1, lowS, isKey.2⟩

end Bam.Coprocessor
