import Bam.Contracts.BLSVerifier
import Bam.Contracts.ExposureRecord
import Bam.Contracts.KZGVerifier
import Bam.Lib.Runs

namespace Bam

open Bytewise

/-!
# The BLS exposer

A message is exposed once, from a blob or from calldata, after its bytes, its
batch and its signature are checked.  The signature is checked by a call of the
contract to itself, whose failure is caught.  What the other contracts answer is
part of the input.
-/

namespace BLSExposer

/-- `"ERC-BAM.v1"`. -/
def DOMAIN_TEXT : Bytes :=
  [0x45, 0x52, 0x43, 0x2d, 0x42, 0x41, 0x4d, 0x2e, 0x76, 0x31]

/-- `SocialBlobsTypes.ExposureParams`. -/
structure BlobParams where
  versionedHash : Bytes32
  kzgProofs : List KZGProof
  byteOffset : Nat
  byteLength : Nat
  messageBytes : Bytes
  blsSignature : Bytes
  registrationProof : Bytes
  contentTag : Bytes32
  deriving Repr, DecidableEq

/-- `SocialBlobsTypes.CalldataExposureParams`. -/
structure CalldataParams where
  batchData : Bytes
  messageOffset : Nat
  messageBytes : Bytes
  signature : Bytes
  registrationProof : Bytes
  contentTag : Bytes32
  deriving Repr, DecidableEq

inductive Revert where
  | NotRegistered (contentHash : Bytes32)
  | kzg (error : KZGVerifier.Error)
  | MessageMismatch
  /-- The slice behind the fields of a message. -/
  | sliceOutOfBounds
  | AlreadyExposed (messageId : Bytes32)
  | SenderNotRegistered (sender : Address)
  | BLSVerificationFailed
  | panic
  deriving Repr, DecidableEq

/-- The contract after its constructor, and the machine it runs on. -/
structure Deployment where
  kzg : KZGVerifier.Machine
  bls : BLSVerifier.Machine
  chainId : Nat
  address : Address
  /-- An exposure record is configured. -/
  records : Bool

/-- What a call meets outside the contract. -/
structure Surroundings where
  blockTimestamp : Nat
  /-- The answer of the registration verifier. -/
  verifyRegistration : Bytes32 → Bytes → Bool
  /-- The registered keys; no bytes for an account without one. -/
  getKey : Address → Bytes
  /-- The gas runs out inside the signature check. -/
  checkOutOfGas : Bool
  /-- The gas runs out inside the exposure record. -/
  recordOutOfGas : Bool

/-- The message of a call that passes the checks of its bytes. -/
structure Claim where
  contentHash : Bytes32
  contentTag : Bytes32
  messageBytes : Bytes
  signature : Bytes
  deriving Repr, DecidableEq

/-- `_parseSender`. -/
def Claim.sender (claim : Claim) : Address :=
  BitVec.ofNat 160 (loadBytes claim.messageBytes 0 20)

/-- `_parseNonce`. -/
def Claim.nonce (claim : Claim) : Nat :=
  loadBytes claim.messageBytes 24 2

/-- `messageBytes[26:]`. -/
def Claim.contents (claim : Claim) : Bytes :=
  claim.messageBytes.drop 26

/-- The timestamp that `_recordExposure` reads. -/
def Claim.msgTimestamp (claim : Claim) : Nat :=
  if 24 ≤ claim.messageBytes.length then
    loadBytes claim.messageBytes 20 4
  else 0

/-- `abi.encodePacked(sender, contentTag, nonce, contents)`. -/
def Claim.packed (claim : Claim) : Bytes :=
  addressBytes claim.sender ++ bytes32Bytes claim.contentTag ++
    toBE 8 claim.nonce ++ claim.contents

/-- `abi.encodePacked(sender, contentTag, nonce, contentHash)`. -/
def Claim.packedId (claim : Claim) : Bytes :=
  addressBytes claim.sender ++ bytes32Bytes claim.contentTag ++
    toBE 8 claim.nonce ++ bytes32Bytes claim.contentHash

section

variable (deployment : Deployment)

def Deployment.keccak256 : Bytes → Bytes32 :=
  deployment.kzg.keccak256

/-- `_DOMAIN`. -/
def Deployment.domain : Bytes32 :=
  deployment.keccak256 (DOMAIN_TEXT ++ toBE 32 deployment.chainId)

/-- `abi.encodePacked(_DOMAIN, messageHash)`. -/
def Deployment.signedBytes (claim : Claim) : Bytes :=
  bytes32Bytes deployment.domain ++
    bytes32Bytes (deployment.keccak256 claim.packed)

def Deployment.signedHash (claim : Claim) : Bytes32 :=
  deployment.keccak256 (deployment.signedBytes claim)

def Deployment.messageId (claim : Claim) : Bytes32 :=
  deployment.keccak256 claim.packedId

def Deployment.msgContentHash (claim : Claim) : Bytes32 :=
  deployment.keccak256 claim.messageBytes

/-- The exposer with the exposure record it writes to. -/
structure Exposer where
  exposed : Bytes32 → Bool
  record : ExposureRecord

/-- The answer of `verifyBLSExternal`; `none` where it reverts. -/
def checkSignature
    (surroundings : Surroundings)
    (claim : Claim) : Option Bool :=
  BLSVerifier.verifyBLSExternal deployment.bls surroundings.checkOutOfGas
    (surroundings.getKey claim.sender) (deployment.signedHash claim)
    claim.signature

/-- `_verifyBLSSignature`. -/
def verifyBLSSignature
    (surroundings : Surroundings)
    (claim : Claim) : Except Revert Unit :=
  if (surroundings.getKey claim.sender).length = 0 then
    .error (.SenderNotRegistered claim.sender)
  else
    let valid :=
      match checkSignature deployment surroundings claim with
      | some result => result
      | none => true
    if valid then .ok () else .error .BLSVerificationFailed

/-- `_recordExposure`. -/
def recordExposure
    (surroundings : Surroundings)
    (claim : Claim)
    (record : ExposureRecord) : ExposureRecord :=
  if surroundings.recordOutOfGas then record
  else
    match record.record deployment.address surroundings.blockTimestamp
        (deployment.messageId claim) claim.sender
        (deployment.msgContentHash claim) claim.msgTimestamp with
    | .ok next => next
    | .error _ => record

/-- The part that both entry points share, from the fields of the message
on. -/
def exposeClaim
    (surroundings : Surroundings)
    (claim : Claim)
    (exposer : Exposer) : Except Revert (Bytes32 × Exposer) :=
  if claim.messageBytes.length < 26 then .error .sliceOutOfBounds
  else
    let messageId := deployment.messageId claim
    if exposer.exposed messageId then .error (.AlreadyExposed messageId)
    else
      match verifyBLSSignature deployment surroundings claim with
      | .error revert => .error revert
      | .ok () =>
          .ok (messageId, {
            exposed := Function.update exposer.exposed messageId true
            record :=
              if deployment.records then
                recordExposure deployment surroundings claim exposer.record
              else exposer.record })

/-- The message `expose` is called for. -/
def BlobParams.claim (params : BlobParams) : Claim where
  contentHash := params.versionedHash
  contentTag := params.contentTag
  messageBytes := params.messageBytes
  signature := params.blsSignature

/-- The message `exposeFromCalldata` is called for. -/
def CalldataParams.claim (params : CalldataParams) : Claim where
  contentHash := deployment.keccak256 params.batchData
  contentTag := params.contentTag
  messageBytes := params.messageBytes
  signature := params.signature

/-- The checks of `expose` before the fields of the message are read. -/
def checkBlob
    (surroundings : Surroundings)
    (params : BlobParams) : Except Revert Unit :=
  if !surroundings.verifyRegistration params.versionedHash
      params.registrationProof then
    .error (.NotRegistered params.versionedHash)
  else
    match KZGVerifier.verifyAndExtract deployment.kzg params.versionedHash
        params.kzgProofs params.byteOffset params.byteLength with
    | .error error => .error (.kzg error)
    | .ok extractedBytes =>
        if deployment.keccak256 extractedBytes ≠
            deployment.keccak256 params.messageBytes then
          .error .MessageMismatch
        else .ok ()

/-- Those of `exposeFromCalldata`. -/
def checkCalldata
    (surroundings : Surroundings)
    (params : CalldataParams) : Except Revert Unit :=
  let contentHash := deployment.keccak256 params.batchData
  if !surroundings.verifyRegistration contentHash
      params.registrationProof then
    .error (.NotRegistered contentHash)
  else
    match checkedAdd params.messageOffset params.messageBytes.length with
    | none => .error .panic
    | some stop =>
        if params.batchData.length < stop then .error .MessageMismatch
        else
          let extractedMessage :=
            (params.batchData.drop params.messageOffset).take
              params.messageBytes.length
          if deployment.keccak256 extractedMessage ≠
              deployment.keccak256 params.messageBytes then
            .error .MessageMismatch
          else .ok ()

/-- `expose`. -/
def expose
    (surroundings : Surroundings)
    (params : BlobParams)
    (exposer : Exposer) : Except Revert (Bytes32 × Exposer) :=
  match checkBlob deployment surroundings params with
  | .error revert => .error revert
  | .ok () => exposeClaim deployment surroundings params.claim exposer

/-- `exposeFromCalldata`. -/
def exposeFromCalldata
    (surroundings : Surroundings)
    (params : CalldataParams)
    (exposer : Exposer) : Except Revert (Bytes32 × Exposer) :=
  match checkCalldata deployment surroundings params with
  | .error revert => .error revert
  | .ok () =>
      exposeClaim deployment surroundings (params.claim deployment) exposer

end

/-!
## Runs of calls
-/

/-- A message that has been exposed, with what its signature was checked
against. -/
structure Exposure where
  claim : Claim
  /-- The key registered for the sender. -/
  publicKey : Bytes
  checkOutOfGas : Bool
  deriving Repr, DecidableEq

/-- The two contracts with the exposures so far, the latest first. -/
structure History where
  exposer : Exposer
  exposures : List Exposure

/-- The exposer right after deployment, beside any exposure record. -/
def History.deployed (record : ExposureRecord) : History where
  exposer := { exposed := fun _ => false, record := record }
  exposures := []

/-- A call of one of the two contracts, by any account. -/
inductive Call where
  | expose (surroundings : Surroundings) (params : BlobParams)
  | exposeFromCalldata
      (surroundings : Surroundings)
      (params : CalldataParams)
  | record
      (msgSender : Address)
      (blockTimestamp : Nat)
      (messageHash : Bytes32)
      (sender : Address)
      (contentHash : Bytes32)
      (timestamp : Nat)

/-- The signature check that a call makes. -/
def noteOf
    (surroundings : Surroundings)
    (claim : Claim) : Exposure where
  claim := claim
  publicKey := surroundings.getKey claim.sender
  checkOutOfGas := surroundings.checkOutOfGas

/-- An exposure that succeeds is noted. -/
def History.after
    (history : History)
    (note : Exposure)
    (outcome : Except Revert (Bytes32 × Exposer)) : Option History :=
  match outcome with
  | .error _ => none
  | .ok (_, exposer) =>
      some { exposer := exposer, exposures := note :: history.exposures }

section

variable (deployment : Deployment)

/-- A call that succeeds. -/
def callStep
    (history : History) : Call → Option History
  | .expose surroundings params =>
      history.after (noteOf surroundings params.claim)
        (expose deployment surroundings params history.exposer)
  | .exposeFromCalldata surroundings params =>
      history.after
        (noteOf surroundings (params.claim deployment))
        (exposeFromCalldata deployment surroundings params
          history.exposer)
  | .record msgSender blockTimestamp messageHash sender contentHash
      timestamp =>
      match history.exposer.record.record msgSender blockTimestamp
          messageHash sender contentHash timestamp with
      | .error _ => none
      | .ok record =>
          some { history with
            exposer := { history.exposer with record := record } }

/-- The message a call is for. -/
def Call.claim? : Call → Option (Surroundings × Claim)
  | .expose surroundings params => some (surroundings, params.claim)
  | .exposeFromCalldata surroundings params =>
      some (surroundings, params.claim deployment)
  | .record .. => none

variable {deployment}

/-- What an exposure that succeeds has found and done. -/
theorem exposeClaim_ok
    {surroundings : Surroundings}
    {claim : Claim}
    {exposer next : Exposer}
    {messageId : Bytes32}
    (exposed :
      exposeClaim deployment surroundings claim exposer =
        .ok (messageId, next)) :
    26 ≤ claim.messageBytes.length ∧
      exposer.exposed (deployment.messageId claim) = false ∧
      (checkSignature deployment surroundings claim).getD true = true ∧
      next = {
        exposed :=
          Function.update exposer.exposed (deployment.messageId claim)
            true
        record :=
          if deployment.records then
            recordExposure deployment surroundings claim exposer.record
          else exposer.record } := by
  unfold exposeClaim verifyBLSSignature at exposed
  split at exposed
  · cases exposed
  rename_i long
  dsimp only at exposed
  split at exposed
  · cases exposed
  rename_i fresh
  split at exposed
  · cases exposed
  rename_i verified
  split at verified
  · cases verified
  cases answer : checkSignature deployment surroundings claim with
  | none =>
      cases exposed
      exact ⟨Nat.le_of_not_lt long, Bool.eq_false_iff.mpr fresh, rfl, rfl⟩
  | some result =>
      rw [answer] at verified
      dsimp only at verified
      split at verified
      · rename_i valid
        cases exposed
        exact ⟨Nat.le_of_not_lt long, Bool.eq_false_iff.mpr fresh, valid,
          rfl⟩
      · cases verified

/-- The calls that succeed: a message is exposed, or an account writes to the
exposure record itself. -/
theorem callStep_cases
    {history next : History}
    {call : Call}
    (taken : callStep deployment history call = some next) :
    (∃ surroundings claim messageId exposer,
      call.claim? deployment = some (surroundings, claim) ∧
        exposeClaim deployment surroundings claim history.exposer =
          .ok (messageId, exposer) ∧
        next = {
          exposer := exposer
          exposures :=
            noteOf surroundings claim :: history.exposures }) ∨
    ∃ msgSender blockTimestamp messageHash sender contentHash timestamp
        record,
      call =
          .record msgSender blockTimestamp messageHash sender contentHash
            timestamp ∧
        history.exposer.record.record msgSender blockTimestamp
            messageHash sender contentHash timestamp = .ok record ∧
        next = { history with
          exposer := { history.exposer with record := record } } := by
  cases call with
  | expose surroundings params =>
      simp only [callStep, expose] at taken
      cases checked : checkBlob deployment surroundings params with
      | error revert =>
          rw [checked] at taken
          cases taken
      | ok done =>
          rw [checked] at taken
          dsimp only at taken
          cases exposed : exposeClaim deployment surroundings params.claim
              history.exposer with
          | error revert =>
              rw [exposed] at taken
              cases taken
          | ok returned =>
              rw [exposed] at taken
              cases taken
              exact .inl ⟨_, _, _, _, rfl, exposed, rfl⟩
  | exposeFromCalldata surroundings params =>
      simp only [callStep, exposeFromCalldata] at taken
      cases checked : checkCalldata deployment surroundings params with
      | error revert =>
          rw [checked] at taken
          cases taken
      | ok done =>
          rw [checked] at taken
          dsimp only at taken
          cases exposed : exposeClaim deployment surroundings
              (params.claim deployment) history.exposer with
          | error revert =>
              rw [exposed] at taken
              cases taken
          | ok returned =>
              rw [exposed] at taken
              cases taken
              exact .inl ⟨_, _, _, _, rfl, exposed, rfl⟩
  | record msgSender blockTimestamp messageHash sender contentHash
      timestamp =>
      simp only [callStep] at taken
      cases recorded : history.exposer.record.record msgSender
          blockTimestamp messageHash sender contentHash timestamp with
      | error error =>
          rw [recorded] at taken
          cases taken
      | ok record =>
          rw [recorded] at taken
          cases taken
          exact .inr ⟨_, _, _, _, _, _, _, rfl, recorded, rfl⟩

end

end BLSExposer

end Bam
