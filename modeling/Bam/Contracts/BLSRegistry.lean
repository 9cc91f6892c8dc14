import Bam.Contracts.BLSVerifier
import Bam.Contracts.Evm
import Mathlib.Logic.Function.Basic

namespace Bam

open Bytewise

/-!
# The BLS key registry

An account registers one key with a proof of possession, may replace it with
another, and may revoke it for good.
-/

/-- `SocialBlobsTypes.BLSKeyRecord`. -/
structure BLSKeyRecord where
  pubKey : Bytes
  index : Nat
  revoked : Bool
  deriving Repr, DecidableEq

/-- The storage of the contract. -/
structure BLSRegistry where
  keys : Address → BLSKeyRecord
  indexToOwner : Nat → Address
  nextIndex : Nat

namespace BLSRegistry

def BLS_PUBKEY_LENGTH : Nat := 48

/-- `"SocialBlobs-BLS-PoP-v1"`. -/
def POP_DOMAIN_TEXT : Bytes :=
  [0x53, 0x6f, 0x63, 0x69, 0x61, 0x6c, 0x42, 0x6c, 0x6f, 0x62, 0x73,
    0x2d, 0x42, 0x4c, 0x53, 0x2d, 0x50, 0x6f, 0x50, 0x2d, 0x76, 0x31]

inductive Error where
  | AlreadyRegistered (owner : Address)
  | InvalidPublicKey
  | InvalidProofOfPossession
  | NotRegistered (owner : Address)
  | KeyIsRevoked
  | panic
  deriving Repr, DecidableEq

/-- The contract after its constructor, and the machine it runs on. -/
structure Deployment where
  keccak256 : Bytes → Bytes32
  bls : BLSVerifier.Machine
  chainId : Nat
  address : Address

/-- A key that an account presents. -/
structure Presented where
  msgSender : Address
  blsPubKey : Bytes
  popSignature : Bytes
  /-- The gas runs out inside the check of the proof. -/
  checkOutOfGas : Bool
  deriving Repr, DecidableEq

/-- The storage right after deployment. -/
def initial : BLSRegistry where
  keys := fun _ => { pubKey := [], index := 0, revoked := false }
  indexToOwner := fun _ => 0
  nextIndex := 1

/-- `getKey`. -/
def getKey
    (registry : BLSRegistry)
    (owner : Address) : Bytes :=
  if (registry.keys owner).revoked then [] else (registry.keys owner).pubKey

/-- `_isZeroBytes`. -/
def isZeroBytes (data : Bytes) : Bool :=
  data.all fun byte => byte = 0

section

variable (deployment : Deployment)

/-- `_domainSeparator`. -/
def domainSeparator : Bytes32 :=
  deployment.keccak256
    (POP_DOMAIN_TEXT ++ toBE 32 deployment.chainId ++
      addressBytes deployment.address)

/-- `_computePopMessage`. -/
def computePopMessage
    (owner : Address)
    (blsPubKey : Bytes) : Bytes32 :=
  deployment.keccak256
    (bytes32Bytes (domainSeparator deployment) ++ addressBytes owner ++
      blsPubKey)

/-- `_verifyPop`. -/
def verifyPop (presented : Presented) : Except Error Bool :=
  match BLSVerifier.verifyBLSExternal deployment.bls
      presented.checkOutOfGas presented.blsPubKey
      (computePopMessage deployment presented.msgSender
        presented.blsPubKey) presented.popSignature with
  | some result => .ok result
  | none => .error .InvalidProofOfPossession

/-- The checks of a key that `register` and `rotate` share. -/
def checkKey (presented : Presented) : Except Error Unit :=
  if presented.blsPubKey.length ≠ BLS_PUBKEY_LENGTH then
    .error .InvalidPublicKey
  else if isZeroBytes presented.blsPubKey then .error .InvalidPublicKey
  else
    match verifyPop deployment presented with
    | .error error => .error error
    | .ok valid =>
        if !valid then .error .InvalidProofOfPossession else .ok ()

/-- `register`. -/
def register
    (presented : Presented)
    (registry : BLSRegistry) : Except Error (Nat × BLSRegistry) :=
  if 0 < (registry.keys presented.msgSender).pubKey.length then
    .error (.AlreadyRegistered presented.msgSender)
  else
    match checkKey deployment presented with
    | .error error => .error error
    | .ok () =>
        match checkedAdd registry.nextIndex 1 with
        | none => .error .panic
        | some nextIndex =>
            .ok (registry.nextIndex, {
              keys :=
                Function.update registry.keys presented.msgSender {
                  pubKey := presented.blsPubKey
                  index := registry.nextIndex
                  revoked := false }
              indexToOwner :=
                Function.update registry.indexToOwner registry.nextIndex
                  presented.msgSender
              nextIndex := nextIndex })

/-- `rotate`. -/
def rotate
    (presented : Presented)
    (registry : BLSRegistry) : Except Error BLSRegistry :=
  let record := registry.keys presented.msgSender
  if record.pubKey.length = 0 then
    .error (.NotRegistered presented.msgSender)
  else if record.revoked then .error .KeyIsRevoked
  else
    match checkKey deployment presented with
    | .error error => .error error
    | .ok () =>
        .ok { registry with
          keys :=
            Function.update registry.keys presented.msgSender
              { record with pubKey := presented.blsPubKey } }

/-- `revoke`. -/
def revoke
    (msgSender : Address)
    (registry : BLSRegistry) : Except Error BLSRegistry :=
  let record := registry.keys msgSender
  if record.pubKey.length = 0 then .error (.NotRegistered msgSender)
  else if record.revoked then .error .KeyIsRevoked
  else
    .ok { registry with
      keys :=
        Function.update registry.keys msgSender
          { record with revoked := true } }

/-- A call of the registry, by any account. -/
inductive Call where
  | register (presented : Presented)
  | rotate (presented : Presented)
  | revoke (msgSender : Address)
  deriving Repr, DecidableEq

/-- The key a call presents. -/
def Call.presented? : Call → Option Presented
  | .register presented => some presented
  | .rotate presented => some presented
  | .revoke _ => none

/-- A call that succeeds. -/
def callStep
    (registry : BLSRegistry) : Call → Option BLSRegistry
  | .register presented =>
      ((register deployment presented registry).map Prod.snd).toOption
  | .rotate presented =>
      (rotate deployment presented registry).toOption
  | .revoke msgSender => (revoke msgSender registry).toOption

variable {deployment}

/-- A key that passes its checks has a valid proof of possession. -/
theorem verify_of_checkKey
    {presented : Presented}
    (checked : checkKey deployment presented = .ok ()) :
    BLSVerifier.verify deployment.bls presented.blsPubKey
        (computePopMessage deployment presented.msgSender
          presented.blsPubKey) presented.popSignature = .ok true := by
  unfold checkKey verifyPop at checked
  split at checked
  · cases checked
  split at checked
  · cases checked
  split at checked
  · cases checked
  rename_i valid verified
  split at checked
  · cases checked
  rename_i isValid
  have isTrue : valid = true := by
    simpa using isValid
  split at verified
  · rename_i result answered
    cases verified
    subst isTrue
    exact (BLSVerifier.verifyBLSExternal_eq_some_iff.mp answered).2
  · cases verified

theorem getKey_update
    (registry : BLSRegistry)
    (owner : Address)
    (record : BLSKeyRecord) :
    getKey { registry with
        keys := Function.update registry.keys owner record } =
      Function.update registry.getKey owner
        (if record.revoked then [] else record.pubKey) := by
  funext other
  unfold getKey
  by_cases same : other = owner
  · subst same
    simp only [Function.update_self]
  · simp only [Function.update_of_ne same]

/-- The keys after a call that succeeds: the caller has the key it presented,
or none, and the others have theirs. -/
theorem callStep_cases
    {registry next : BLSRegistry}
    {call : Call}
    (taken : callStep deployment registry call = some next) :
    (∃ presented,
      call.presented? = some presented ∧
        checkKey deployment presented = .ok () ∧
        next.getKey =
          Function.update registry.getKey presented.msgSender
            presented.blsPubKey) ∨
    ∃ msgSender,
      call = .revoke msgSender ∧
        next.getKey = Function.update registry.getKey msgSender [] := by
  cases call with
  | register presented =>
      simp only [callStep] at taken
      unfold register at taken
      split at taken
      · cases taken
      split at taken
      · cases taken
      rename_i checked
      split at taken
      · cases taken
      cases taken
      refine .inl ⟨presented, rfl, checked, ?_⟩
      exact getKey_update _ _ _
  | rotate presented =>
      simp only [callStep] at taken
      unfold rotate at taken
      dsimp only at taken
      split at taken
      · cases taken
      split at taken
      · cases taken
      rename_i notRevoked
      split at taken
      · cases taken
      rename_i checked
      cases taken
      refine .inl ⟨presented, rfl, checked, ?_⟩
      rw [getKey_update]
      dsimp only
      rw [if_neg notRevoked]
  | revoke msgSender =>
      simp only [callStep] at taken
      unfold revoke at taken
      dsimp only at taken
      split at taken
      · cases taken
      split at taken
      · cases taken
      cases taken
      refine .inr ⟨msgSender, rfl, ?_⟩
      rw [getKey_update]
      rfl

end

end BLSRegistry

end Bam
