import Bam.Contracts.Evm
import Bam.Lib.Abi
import Bam.Lib.Runs
import Bam.Sdk.Signatures
import Mathlib.Logic.Function.Basic

namespace Bam

open Bytewise

/-!
# The ECDSA registry

An owner is bound to a delegate address and to a registry index.  OpenZeppelin's
`ECDSA.tryRecover` is a parameter; its documented behaviour on signatures of 65
bytes is a hypothesis where a result needs it.
-/

def ECDSA_PUBKEY_LENGTH : Nat := 20

def ECDSA_SIGNATURE_LENGTH : Nat := 65

/-- `"ERC-BAM-ECDSA-PoP.v1"`. -/
def POP_DOMAIN : Bytes :=
  [0x45, 0x52, 0x43, 0x2d, 0x42, 0x41, 0x4d, 0x2d, 0x45, 0x43,
    0x44, 0x53, 0x41, 0x2d, 0x50, 0x6f, 0x50, 0x2e, 0x76, 0x31]

/-- `"\x19Ethereum Signed Message:\n32"`. -/
def ETH_SIGNED_MESSAGE : Bytes :=
  [0x19, 0x45, 0x74, 0x68, 0x65, 0x72, 0x65, 0x75, 0x6d, 0x20,
    0x53, 0x69, 0x67, 0x6e, 0x65, 0x64, 0x20, 0x4d, 0x65, 0x73,
    0x73, 0x61, 0x67, 0x65, 0x3a, 0x0a, 0x33, 0x32]

/-- The largest `s` that is not a high one: half the order of the curve. -/
def HALF_ORDER : Nat :=
  0x7fffffffffffffffffffffffffffffff5d576e7357a4501ddfe92f46681b20a0

/-- `ECDSA.RecoverError`. -/
inductive RecoverError where
  | NoError
  | InvalidSignature
  | InvalidSignatureLength
  | InvalidSignatureS
  deriving Repr, DecidableEq

/-- The libraries the registry is compiled with, and its own address. -/
structure RegistryDeployment where
  crypto : CryptoLibraries
  /-- The first two values `ECDSA.tryRecover` returns. -/
  tryRecover : Bytes32 → Bytes → Address × RecoverError
  address : Address

/-- The `ecrecover` precompile: the zero address where it fails. -/
def ecrecover
    (crypto : CryptoLibraries)
    (hash : Bytes32)
    (v : Nat)
    (compact : Bytes) : Address :=
  if v ≠ 27 ∧ v ≠ 28 then 0
  else
    match crypto.recoverPublicKey compact (v - 27) hash with
    | none => 0
    | some uncompressed => publicKeyToAddress crypto uncompressed

/-- What the libraries document about signatures of 65 bytes: both sides take an
`s` above half the order for a high one, and `ECDSA.tryRecover` is `ecrecover`
behind that check. -/
structure RegistryDeployment.Documented
    (deployment : RegistryDeployment) : Prop where
  hasHighS :
    ∀ compact : Bytes, compact.length = 64 →
      deployment.crypto.hasHighS compact =
        decide (HALF_ORDER < ofBE (compact.drop 32))
  tryRecover :
    ∀ (hash : Bytes32) (signature : Bytes), signature.length = 65 →
      deployment.tryRecover hash signature =
        let compact := signature.take 64
        let v := (signature.getD 64 0).toNat
        if HALF_ORDER < ofBE (compact.drop 32) then
          (0, .InvalidSignatureS)
        else
          let signer := ecrecover deployment.crypto hash v compact
          if signer = 0 then (0, .InvalidSignature)
          else (signer, .NoError)

/-- The storage of the contract. -/
structure ECDSARegistry where
  delegate : Address → Address
  index : Address → Nat
  indexToOwner : Nat → Address
  nextIndex : Nat

/-- What `register` and `rotate` revert with. -/
inductive RegistryError where
  | AlreadyRegistered (owner : Address)
  | NotRegistered (owner : Address)
  | InvalidPublicKey
  | InvalidProofOfPossession
  /-- The counter is at its end. -/
  | panic
  deriving Repr, DecidableEq

/-- `_decodeDelegate`. -/
def decodeDelegate (pubKey : Bytes) : Except RegistryError Address :=
  if pubKey.length ≠ ECDSA_PUBKEY_LENGTH then .error .InvalidPublicKey
  else .ok (addressOfBytes (pubKey.take 20))

namespace RegistryDeployment

variable (deployment : RegistryDeployment)

/-- `_tryRecoverMatches`. -/
def tryRecoverMatches
    (hash : Bytes32)
    (signature : Bytes)
    (expected : Address) : Bool :=
  if signature.length ≠ ECDSA_SIGNATURE_LENGTH then false
  else
    let (recovered, err) := deployment.tryRecover hash signature
    if err ≠ .NoError then false
    else if recovered = 0 then false
    else recovered = expected

/-- `abi.encode(POP_DOMAIN, block.chainid, address(this), owner)`. -/
def popEnvelope
    (chainId : Nat)
    (owner : Address) : Bytes :=
  Abi.encodeSequence [
    Abi.bytes POP_DOMAIN,
    Abi.uint chainId,
    Abi.uint deployment.address.toNat,
    Abi.uint owner.toNat]

/-- `MessageHashUtils.toEthSignedMessageHash`. -/
def toEthSignedMessageHash (hash : Bytes32) : Bytes32 :=
  deployment.crypto.keccak256 (ETH_SIGNED_MESSAGE ++ bytes32Bytes hash)

/-- `_verifyPop`. -/
def verifyPop
    (chainId : Nat)
    (delegate owner : Address)
    (popProof : Bytes) : Bool :=
  if popProof.length ≠ ECDSA_SIGNATURE_LENGTH then false
  else
    let popInner :=
      deployment.crypto.keccak256 (deployment.popEnvelope chainId owner)
    let popSigned := deployment.toEthSignedMessageHash popInner
    let (recovered, err) := deployment.tryRecover popSigned popProof
    if err ≠ .NoError then false
    else if recovered = 0 then false
    else recovered = delegate

/-- A proof of possession is never one of the zero address. -/
theorem delegate_ne_zero_of_verifyPop
    {chainId : Nat}
    {delegate owner : Address}
    {popProof : Bytes}
    (verified :
      deployment.verifyPop chainId delegate owner popProof = true) :
    delegate ≠ 0 := by
  rw [verifyPop] at verified
  split at verified
  · cases verified
  · dsimp only at verified
    split at verified
    · cases verified
    · split at verified
      · cases verified
      · rename_i nonzero
        exact of_decide_eq_true verified ▸ nonzero

end RegistryDeployment

namespace ECDSARegistry

/-- The storage right after deployment. -/
def initial : ECDSARegistry where
  delegate := fun _ => 0
  index := fun _ => 0
  indexToOwner := fun _ => 0
  nextIndex := 1

/-- The four writes `register` and `rotate` end with, and the index they
return. -/
def assign
    (registry : ECDSARegistry)
    (owner candidate : Address) :
    Except RegistryError (Nat × ECDSARegistry) :=
  match checkedAdd registry.nextIndex 1 with
  | none => .error .panic
  | some next =>
      .ok (registry.nextIndex, {
        delegate := Function.update registry.delegate owner candidate
        index := Function.update registry.index owner registry.nextIndex
        indexToOwner :=
          Function.update registry.indexToOwner registry.nextIndex owner
        nextIndex := next })

/-- `delete _indexToOwner[oldIndex]`, unless the owner has no index. -/
def retire
    (registry : ECDSARegistry)
    (owner : Address) : ECDSARegistry :=
  let oldIndex := registry.index owner
  if oldIndex ≠ 0 then
    { registry with
      indexToOwner := Function.update registry.indexToOwner oldIndex 0 }
  else registry

variable (deployment : RegistryDeployment)

/-- `register`. -/
def register
    (chainId : Nat)
    (msgSender : Address)
    (pubKey popProof : Bytes)
    (registry : ECDSARegistry) :
    Except RegistryError (Nat × ECDSARegistry) :=
  if registry.delegate msgSender ≠ 0 then
    .error (.AlreadyRegistered msgSender)
  else
    match decodeDelegate pubKey with
    | .error failure => .error failure
    | .ok candidate =>
        if deployment.verifyPop chainId candidate msgSender
            popProof = false then
          .error .InvalidProofOfPossession
        else
          registry.assign msgSender candidate

/-- `rotate`. -/
def rotate
    (chainId : Nat)
    (msgSender : Address)
    (newPubKey newPopProof : Bytes)
    (registry : ECDSARegistry) :
    Except RegistryError (Nat × ECDSARegistry) :=
  if registry.delegate msgSender = 0 then
    .error (.NotRegistered msgSender)
  else
    match decodeDelegate newPubKey with
    | .error failure => .error failure
    | .ok candidate =>
        if deployment.verifyPop chainId candidate msgSender
            newPopProof = false then
          .error .InvalidProofOfPossession
        else
          (registry.retire msgSender).assign msgSender candidate

/-- `getKey`. -/
def getKey
    (registry : ECDSARegistry)
    (owner : Address) : Bytes :=
  if registry.delegate owner = 0 then []
  else addressBytes (registry.delegate owner)

/-- `hasDelegate`. -/
def hasDelegate
    (registry : ECDSARegistry)
    (owner : Address) : Bool :=
  registry.delegate owner ≠ 0

/-- `verifyWithRegisteredKey`. -/
def verifyWithRegisteredKey
    (registry : ECDSARegistry)
    (owner : Address)
    (messageHash : Bytes32)
    (signature : Bytes) : Bool :=
  let bound := registry.delegate owner
  let expected := if bound = 0 then owner else bound
  if expected = 0 then false
  else deployment.tryRecoverMatches messageHash signature expected

/-- A call of one of the two functions that write, by anyone, on whatever chain
the registry finds itself on. -/
inductive Call where
  | register (chainId : Nat) (msgSender : Address) (pubKey popProof : Bytes)
  | rotate (chainId : Nat) (msgSender : Address) (pubKey popProof : Bytes)
  deriving Repr, DecidableEq

def run
    (registry : ECDSARegistry) :
    Call → Except RegistryError (Nat × ECDSARegistry)
  | .register chainId msgSender pubKey popProof =>
      register deployment chainId msgSender pubKey popProof registry
  | .rotate chainId msgSender pubKey popProof =>
      rotate deployment chainId msgSender pubKey popProof registry

/-- A call that reverts leaves the storage as it was. -/
def after
    (registry : ECDSARegistry)
    (call : Call) : ECDSARegistry :=
  match registry.run deployment call with
  | .error _ => registry
  | .ok (_, next) => next

/-- The delegate the mirror is called with. -/
def delegate?
    (registry : ECDSARegistry)
    (owner : Address) : Option Address :=
  if registry.delegate owner = 0 then none
  else some (registry.delegate owner)

/-- What every call keeps: the maps are inverse to each other on the indices in
use, and an owner has an index exactly when it has a delegate. -/
structure Consistent (registry : ECDSARegistry) : Prop where
  registered :
    ∀ owner, registry.delegate owner ≠ 0 ↔ registry.index owner ≠ 0
  resolves :
    ∀ owner, registry.index owner ≠ 0 →
      registry.indexToOwner (registry.index owner) = owner
  current :
    ∀ index, registry.indexToOwner index ≠ 0 →
      registry.index (registry.indexToOwner index) = index
  assigned : ∀ owner, registry.index owner < registry.nextIndex
  unindexed : registry.indexToOwner 0 = 0

/-- What holds just before an owner is given its new index: all of `Consistent`
for the others, and no index resolves to the owner. -/
structure Released
    (owner : Address)
    (registry : ECDSARegistry) : Prop where
  registered :
    ∀ other, other ≠ owner →
      (registry.delegate other ≠ 0 ↔ registry.index other ≠ 0)
  resolves :
    ∀ other, other ≠ owner → registry.index other ≠ 0 →
      registry.indexToOwner (registry.index other) = other
  current :
    ∀ index, registry.indexToOwner index ≠ 0 →
      registry.indexToOwner index ≠ owner ∧
        registry.index (registry.indexToOwner index) = index
  assigned : ∀ other, registry.index other < registry.nextIndex
  unindexed : registry.indexToOwner 0 = 0

/-- A retired index, and one not assigned yet, resolves to nobody. -/
theorem Consistent.retired
    {registry : ECDSARegistry}
    (consistent : registry.Consistent)
    {index : Nat}
    (unused : ∀ owner, registry.index owner ≠ index) :
    registry.indexToOwner index = 0 := by
  by_contra resolved
  exact unused _ (consistent.current index resolved)

theorem Consistent.initial : initial.Consistent where
  registered := fun _ => ⟨(absurd rfl ·), (absurd rfl ·)⟩
  resolves := fun _ indexed => (indexed rfl).elim
  current := fun _ resolved => (resolved rfl).elim
  assigned := fun _ => Nat.one_pos
  unindexed := rfl

variable {registry next : ECDSARegistry} {owner candidate : Address}
variable {index : Nat}

/-- An owner without a delegate has no index to retire. -/
theorem Consistent.released
    (consistent : registry.Consistent)
    (keyless : registry.delegate owner = 0) :
    registry.Released owner where
  registered := fun other _ => consistent.registered other
  resolves := fun other _ => consistent.resolves other
  current := by
    intro index resolved
    have isCurrent := consistent.current index resolved
    refine ⟨?_, isCurrent⟩
    intro isOwner
    have unindexed : registry.index owner = 0 := by
      by_contra indexed
      exact (consistent.registered owner).mpr indexed keyless
    rw [isOwner, unindexed] at isCurrent
    rw [← isCurrent] at resolved
    exact resolved consistent.unindexed
  assigned := consistent.assigned
  unindexed := consistent.unindexed

/-- Retiring the index of an owner leaves the other entries as they were. -/
theorem Consistent.retire
    (consistent : registry.Consistent)
    (keyed : registry.delegate owner ≠ 0) :
    (registry.retire owner).Released owner := by
  have indexed := (consistent.registered owner).mp keyed
  rw [ECDSARegistry.retire, if_pos indexed]
  constructor
  · intro other _
    exact consistent.registered other
  · intro other isOther otherIndexed
    have resolved := consistent.resolves other otherIndexed
    have distinct : registry.index other ≠ registry.index owner := by
      intro same
      rw [same, consistent.resolves owner indexed] at resolved
      exact isOther resolved.symm
    simpa [Function.update_of_ne distinct] using resolved
  · intro index resolved
    by_cases isOld : index = registry.index owner
    · simp [isOld] at resolved
    · simp only [Function.update_of_ne isOld] at resolved ⊢
      have isCurrent := consistent.current index resolved
      refine ⟨?_, isCurrent⟩
      intro isOwner
      rw [isOwner] at isCurrent
      exact isOld isCurrent.symm
  · exact consistent.assigned
  · simpa [Function.update_of_ne indexed.symm] using consistent.unindexed

/-- Giving a released owner the next index makes the maps inverse again. -/
theorem Released.assign
    (released : registry.Released owner)
    (nonzero : candidate ≠ 0)
    (assigned : registry.assign owner candidate = .ok (index, next)) :
    next.Consistent := by
  have positive : registry.nextIndex ≠ 0 :=
    (Nat.lt_of_le_of_lt (Nat.zero_le _) (released.assigned owner)).ne'
  rw [ECDSARegistry.assign, checkedAdd] at assigned
  split at assigned
  · cases assigned
  · rename_i isNext
    split at isNext
    · cases isNext
      cases assigned
      constructor
      · intro other
        by_cases isOwner : other = owner
        · simp only [isOwner, Function.update_self]
          exact ⟨fun _ => positive, fun _ => nonzero⟩
        · simpa [Function.update_of_ne isOwner] using
            released.registered other isOwner
      · intro other indexed
        by_cases isOwner : other = owner
        · simp [isOwner]
        · simp only [Function.update_of_ne isOwner] at indexed ⊢
          rw [Function.update_of_ne (released.assigned other).ne]
          exact released.resolves other isOwner indexed
      · intro position resolved
        by_cases isNew : position = registry.nextIndex
        · simp [isNew]
        · simp only [Function.update_of_ne isNew] at resolved ⊢
          obtain ⟨isOther, isCurrent⟩ :=
            released.current position resolved
          rw [Function.update_of_ne isOther]
          exact isCurrent
      · intro other
        by_cases isOwner : other = owner
        · simp [isOwner]
        · simp only [Function.update_of_ne isOwner]
          exact Nat.lt_succ_of_lt (released.assigned other)
      · simpa [Function.update_of_ne positive.symm] using
          released.unindexed
    · cases isNext

/-- What an assignment leaves alone. -/
theorem assign_ok
    (assigned : registry.assign owner candidate = .ok (index, next)) :
    next.nextIndex = registry.nextIndex + 1 ∧
      ∀ position, position ≠ registry.nextIndex →
        next.indexToOwner position = registry.indexToOwner position := by
  rw [ECDSARegistry.assign, checkedAdd] at assigned
  split at assigned
  · cases assigned
  · rename_i isNext
    split at isNext
    · cases isNext
      cases assigned
      refine ⟨rfl, ?_⟩
      intro position other
      exact Function.update_of_ne other _ _
    · cases isNext

/-- Retiring an index lets no other index resolve to anyone. -/
theorem indexToOwner_retire
    {position : Nat}
    (unresolved : registry.indexToOwner position = 0) :
    (registry.retire owner).indexToOwner position = 0 := by
  rw [ECDSARegistry.retire]
  split
  · by_cases isOld : position = registry.index owner
    · simp [isOld]
    · simpa [Function.update_of_ne isOld] using unresolved
  · exact unresolved

theorem nextIndex_retire :
    (registry.retire owner).nextIndex = registry.nextIndex := by
  rw [ECDSARegistry.retire]
  split <;> rfl

/-- What a call that does not revert did. -/
theorem run_ok
    {deployment : RegistryDeployment}
    {call : Call}
    (consistent : registry.Consistent)
    (called : registry.run deployment call = .ok (index, next)) :
    ∃ (owner candidate : Address) (prior : ECDSARegistry),
      prior.Released owner ∧ candidate ≠ 0 ∧
        prior.nextIndex = registry.nextIndex ∧
        (∀ position, registry.indexToOwner position = 0 →
          prior.indexToOwner position = 0) ∧
        prior.assign owner candidate = .ok (index, next) := by
  cases call with
  | register chainId msgSender pubKey popProof =>
      rw [run, register] at called
      split at called
      · cases called
      · rename_i keyless
        split at called
        · cases called
        · rename_i candidate _
          split at called
          · cases called
          · rename_i verified
            rw [Bool.not_eq_false] at verified
            exact ⟨msgSender, candidate, registry,
              consistent.released (not_not.mp keyless),
              deployment.delegate_ne_zero_of_verifyPop verified, rfl,
              fun _ unresolved => unresolved, called⟩
  | rotate chainId msgSender pubKey popProof =>
      rw [run, rotate] at called
      split at called
      · cases called
      · rename_i keyed
        split at called
        · cases called
        · rename_i candidate _
          split at called
          · cases called
          · rename_i verified
            rw [Bool.not_eq_false] at verified
            exact ⟨msgSender, candidate, registry.retire msgSender,
              consistent.retire keyed,
              deployment.delegate_ne_zero_of_verifyPop verified,
              nextIndex_retire, fun _ => indexToOwner_retire, called⟩

/-- Every call keeps the maps inverse to each other, reverted or not. -/
theorem Consistent.after
    {deployment : RegistryDeployment}
    (consistent : registry.Consistent)
    (call : Call) :
    (registry.after deployment call).Consistent := by
  rw [ECDSARegistry.after]
  split
  · exact consistent
  · rename_i index next called
    obtain ⟨owner, candidate, prior, released, nonzero, -, -, assigned⟩ :=
      run_ok consistent called
    exact released.assign nonzero assigned

/-- An index that was assigned and resolves to nobody. -/
structure Retired
    (index : Nat)
    (registry : ECDSARegistry) : Prop where
  consistent : registry.Consistent
  assigned : index < registry.nextIndex
  unresolved : registry.indexToOwner index = 0

/-- A retired index stays retired. -/
theorem Retired.after
    {deployment : RegistryDeployment}
    (retired : registry.Retired index)
    (call : Call) :
    (registry.after deployment call).Retired index := by
  have consistent : (registry.after deployment call).Consistent :=
    retired.consistent.after call
  rw [ECDSARegistry.after] at consistent ⊢
  split
  · exact retired
  · rename_i returned next called
    rw [called] at consistent
    obtain ⟨owner, candidate, prior, -, -, sameNext, kept, isAssigned⟩ :=
      run_ok retired.consistent called
    obtain ⟨counted, others⟩ := assign_ok isAssigned
    constructor
    · exact consistent
    · rw [counted, sameNext]
      exact Nat.lt_succ_of_lt retired.assigned
    · rw [others index (sameNext ▸ retired.assigned.ne)]
      exact kept index retired.unresolved

end ECDSARegistry

section Mirror

variable {deployment : RegistryDeployment}

/-- The registry recovers an address exactly when its mirror does, and the same
one. -/
theorem tryRecoverMatches_eq
    (documented : deployment.Documented)
    (hash : Bytes32)
    (signature : Bytes)
    (expected : Address) :
    deployment.tryRecoverMatches hash signature expected =
      match tryRecoverLikeRegistry deployment.crypto hash signature with
      | none => false
      | some recovered => decide (recovered = expected) := by
  rw [RegistryDeployment.tryRecoverMatches, tryRecoverLikeRegistry,
    ECDSA_SIGNATURE_LENGTH]
  by_cases sized : signature.length = 65
  · have compactSized : (signature.take 64).length = 64 := by
      simp [sized]
    simp only [sized, ne_eq, not_true_eq_false, if_false,
      documented.tryRecover hash signature sized,
      documented.hasHighS _ compactSized, decide_eq_true_eq]
    by_cases high : HALF_ORDER < ofBE ((signature.take 64).drop 32)
    · rw [if_pos high, if_pos high, ite_self]
      rfl
    · rw [if_neg high, if_neg high, ecrecover]
      split
      · rfl
      · cases deployment.crypto.recoverPublicKey (signature.take 64)
            ((signature.getD 64 0).toNat - 27) hash with
        | none =>
            rfl
        | some uncompressed =>
            dsimp only
            by_cases zero :
                publicKeyToAddress deployment.crypto uncompressed = 0
            · rw [if_pos zero, if_pos zero]
              rfl
            · simp only [if_neg zero, not_true_eq_false, if_false]
  · simp [sized]

/-- The registry verifies what the SDK's mirror of it verifies. -/
theorem verifyWithRegisteredKey_eq
    (documented : deployment.Documented)
    (registry : ECDSARegistry)
    (owner : Address)
    (hash : Bytes32)
    (signature : Bytes) :
    registry.verifyWithRegisteredKey deployment owner hash signature =
      verifyEcdsaLocal deployment.crypto owner hash signature
        (registry.delegate? owner) := by
  have expected :
      (registry.delegate? owner).getD owner =
        if registry.delegate owner = 0 then owner
        else registry.delegate owner := by
    rw [ECDSARegistry.delegate?]
    split <;> rfl
  rw [ECDSARegistry.verifyWithRegisteredKey, verifyEcdsaLocal, expected]
  exact if_congr Iff.rfl rfl (tryRecoverMatches_eq documented _ _ _)

end Mirror

/-- Every storage the registry can be brought to by calls of `register` and
`rotate`, by whomever and with whatever arguments, has its two maps inverse to
each other, and verifies for every owner what the SDK's mirror verifies with the
delegate bound there. -/
theorem ecdsaRegistry_mirrored
    {deployment : RegistryDeployment}
    (documented : deployment.Documented)
    {registry : ECDSARegistry}
    (reachable :
      Runs.Reachable
        (fun state call => some (state.after deployment call))
        ECDSARegistry.initial registry) :
    registry.Consistent ∧
      (∀ index, (∀ owner, registry.index owner ≠ index) →
        registry.indexToOwner index = 0) ∧
      (∀ index < registry.nextIndex, registry.indexToOwner index = 0 →
        ∀ later,
          Runs.Reachable
            (fun state call => some (state.after deployment call))
            registry later →
          later.indexToOwner index = 0) ∧
      ∀ (owner : Address) (hash : Bytes32) (signature : Bytes),
        registry.verifyWithRegisteredKey deployment owner hash signature =
          verifyEcdsaLocal deployment.crypto owner hash signature
            (registry.delegate? owner) := by
  have consistent : registry.Consistent := by
    refine reachable.invariant ?_ ECDSARegistry.Consistent.initial
    intro state call next invariant taken
    cases taken
    exact invariant.after call
  refine ⟨consistent, fun _ => consistent.retired, ?_,
    verifyWithRegisteredKey_eq documented registry⟩
  intro index assigned retired later continued
  have kept : ECDSARegistry.Retired index later := by
    refine continued.invariant ?_ ⟨consistent, assigned, retired⟩
    intro state call next invariant taken
    cases taken
    exact invariant.after call
  exact kept.unresolved

/-- The registry deployed at address 2002, with the libraries' answers about one
registration on chain 1: account 1001 binds the address of the private key 1. -/
def sampleDeployment : RegistryDeployment :=
  let envelope :=
    Abi.encodeSequence
      [Abi.bytes POP_DOMAIN, Abi.uint 1, Abi.uint 2002, Abi.uint 1001]
  let popInner : Bytes32 :=
    0x9b42405c77d8f9afaa28807e5acb434765ef7ba4501c54e86497f17ef9f93ede
  let popSigned : Bytes32 :=
    0xa25af7427d5781e1b36764e91c8201d5f2435104e6c006e858a51b3931b28d6b
  let x :=
    0x79be667ef9dcbbac55a06295ce870b07029bfcdb2dce28d959f2815b16f81798
  let y :=
    0x483ada7726a3c4655da4fbfc0e1108a8fd17b448a68554199c47d08ffb10d4b8
  let s :=
    0x1c195dc177343d8e0907c77eeb090cde3a3070f965458f85f2c53e07787463c2
  let point := toBE 32 x ++ toBE 32 y
  let crypto : CryptoLibraries := {
    keccak256 := fun bytes =>
      if bytes = envelope then popInner
      else if bytes = ETH_SIGNED_MESSAGE ++ bytes32Bytes popInner then
        popSigned
      else if bytes = point then
        0xc0a6c424ac7157ae408398df7e5f4552091a69125d5dfcb7b8c2659029395bdf
      else 0
    hashTypedData := fun _ => 0
    hasHighS := fun compact => HALF_ORDER < ofBE (compact.drop 32)
    recoverPublicKey := fun compact recovery hash =>
      if compact = toBE 32 x ++ toBE 32 s ∧ recovery = 0 ∧
          hash = popSigned then
        some (0x04 :: point)
      else none }
  { crypto := crypto
    tryRecover := fun hash signature =>
      let compact := signature.take 64
      let v := (signature.getD 64 0).toNat
      if HALF_ORDER < ofBE (compact.drop 32) then (0, .InvalidSignatureS)
      else
        let signer := ecrecover crypto hash v compact
        if signer = 0 then (0, .InvalidSignature) else (signer, .NoError)
    address := 2002 }

/-- The registration of account 1001. -/
def sampleRegistration : ECDSARegistry.Call :=
  .register 1 1001
    (addressBytes 0x7e5f4552091a69125d5dfcb7b8c2659029395bdf)
    (toBE 32
        0x79be667ef9dcbbac55a06295ce870b07029bfcdb2dce28d959f2815b16f81798
      ++ toBE 32
        0x1c195dc177343d8e0907c77eeb090cde3a3070f965458f85f2c53e07787463c2
      ++ [27])

/-- The registry once account 1001 has registered. -/
theorem ecdsaRegistry_mirrored_registered :
    ∃ registry : ECDSARegistry,
      registry.delegate 1001 = 0x7e5f4552091a69125d5dfcb7b8c2659029395bdf ∧
      registry.indexToOwner 1 = 1001 ∧
      registry.Consistent ∧
      ∀ (owner : Address) (hash : Bytes32) (signature : Bytes),
        registry.verifyWithRegisteredKey sampleDeployment owner hash
            signature =
          verifyEcdsaLocal sampleDeployment.crypto owner hash signature
            (registry.delegate? owner) := by
  have mirrored :=
    @ecdsaRegistry_mirrored sampleDeployment
      ⟨fun _ _ => rfl, fun _ _ _ => rfl⟩
      (ECDSARegistry.initial.after sampleDeployment sampleRegistration)
      ⟨[sampleRegistration], rfl⟩
  exact ⟨_, by decide +kernel, by decide +kernel, mirrored.1,
    mirrored.2.2.2⟩

end Bam
