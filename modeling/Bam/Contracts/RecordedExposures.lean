import Bam.Contracts.ExposureBinding

namespace Bam

open Bytewise

/-!
# The entries of exposed messages

An exposure writes its entry only where nobody has recorded the message id
before it.  What is in the record stays.
-/

namespace BLSExposer

variable (deployment : Deployment)

/-- The entry an exposure is to have. -/
def entryOf
    (surroundings : Surroundings)
    (claim : Claim) : ExposedTweet where
  contentHash := 0
  sender := claim.sender
  messageContentHash := deployment.msgContentHash claim
  timestamp := claim.msgTimestamp
  exposedAt := toUint64 surroundings.blockTimestamp
  exposedBy := deployment.address

/-- The exposure record takes the entry of an exposure. -/
structure Recordable
    (surroundings : Surroundings)
    (claim : Claim)
    (exposureRecord : ExposureRecord) : Prop where
  hasGas : surroundings.recordOutOfGas = false
  dated : 0 < toUint64 surroundings.blockTimestamp
  fresh :
    exposureRecord.isExposed (deployment.messageId claim) = false

variable {deployment}

/-- An exposure leaves the entries that are there. -/
theorem extends_recordExposure
    (surroundings : Surroundings)
    (claim : Claim)
    (exposureRecord : ExposureRecord) :
    exposureRecord.Extends
      (recordExposure deployment surroundings claim exposureRecord) := by
  unfold recordExposure
  split
  · exact .refl exposureRecord
  · split
    · exact ExposureRecord.extends_record ‹_›
    · exact .refl exposureRecord

theorem getExposure_recordExposure
    {surroundings : Surroundings}
    {claim : Claim}
    {exposureRecord : ExposureRecord}
    (recordable :
      Recordable deployment surroundings claim exposureRecord) :
    (recordExposure deployment surroundings claim
        exposureRecord).getExposure (deployment.messageId claim) =
      .ok (entryOf deployment surroundings claim) := by
  obtain ⟨next, ran, found⟩ :=
    ExposureRecord.getExposure_record deployment.address claim.sender
      claim.msgTimestamp (deployment.msgContentHash claim)
      recordable.fresh recordable.dated
  unfold recordExposure
  rw [recordable.hasGas, ran]
  exact found

/-- A call of either contract leaves the entries that are there. -/
theorem extends_callStep
    {history next : History}
    {call : Call}
    (taken : callStep deployment history call = some next) :
    history.exposer.record.Extends next.exposer.record := by
  rcases callStep_cases taken with
    ⟨surroundings, claim, messageId, exposer, -, exposed, rfl⟩ |
      ⟨_, _, _, _, _, _, record, -, recorded, rfl⟩
  · obtain ⟨-, -, -, rfl⟩ := exposeClaim_ok exposed
    dsimp only
    split
    · exact extends_recordExposure surroundings claim _
    · exact .refl _
  · exact ExposureRecord.extends_record recorded

/-- So does a run of calls. -/
theorem extends_exec
    {history final : History}
    {calls : List Call}
    (executed :
      Runs.exec? (callStep deployment) history calls = some final) :
    history.exposer.record.Extends final.exposer.record := by
  refine @Runs.exec?_invariant _ _ _
    (fun state => history.exposer.record.Extends state.exposer.record)
    calls ?_ history final (.refl _) executed
  intro state call next reached _ taken
  exact reached.trans (extends_callStep taken)

/-- An exposure that the record can take has its entry from then on, and no call
changes an entry. -/
theorem exposure_recorded
    (deployment : Deployment)
    (records : deployment.records = true)
    (history final : History)
    (call : Call)
    (later : List Call)
    (executed :
      Runs.exec? (callStep deployment) history (call :: later) =
        some final) :
    (∀ surroundings claim,
      call.claim? deployment = some (surroundings, claim) →
      Recordable deployment surroundings claim history.exposer.record →
        final.exposer.record.getExposure (deployment.messageId claim) =
          .ok (entryOf deployment surroundings claim)) ∧
      history.exposer.record.Extends final.exposer.record := by
  refine ⟨fun surroundings claim isClaim recordable => ?_,
    extends_exec executed⟩
  simp only [Runs.exec?] at executed
  cases taken : callStep deployment history call with
  | none =>
      rw [taken] at executed
      cases executed
  | some next =>
      rw [taken] at executed
      refine extends_exec executed _ _ ?_
      rcases callStep_cases taken with
        ⟨_, _, messageId, exposer, isOther, exposed, rfl⟩ |
          ⟨_, _, _, _, _, _, record, rfl, -, rfl⟩
      · rw [isClaim] at isOther
        cases isOther
        obtain ⟨-, -, -, rfl⟩ := exposeClaim_ok exposed
        dsimp only
        rw [if_pos records]
        exact getExposure_recordExposure recordable
      · cases isClaim

/-- A zero message, in the zero blob. -/
def sampleBlobParams : BlobParams where
  versionedHash := zeroBlobHash
  kzgProofs := [zeroProof]
  byteOffset := 0
  byteLength := 26
  messageBytes := List.replicate 26 0
  blsSignature := BLSDecompression.infinity 96
  registrationProof := []
  contentTag := 0

/-- The message is recorded with another sender before it is exposed. -/
def forestallingCalls : List Call :=
  [.record 0xb 1 (sampleDeployment.messageId sampleBlobParams.claim) 0xb
      0 7,
    .expose sampleSurroundings sampleBlobParams]

def forestallingEntry : ExposedTweet where
  contentHash := 0
  sender := 0xb
  messageContentHash := 0
  timestamp := 7
  exposedAt := 1
  exposedBy := 0xb

/-- An exposure whose entry the record does not take, or takes undated. -/
theorem unrecorded_sample
    {surroundings : Surroundings}
    (sent :
      (Runs.exec? (callStep sampleDeployment) (.deployed .initial)
          [.expose surroundings sampleBlobParams]).map (fun history =>
        history.exposer.record.isExposed
          (sampleDeployment.messageId sampleBlobParams.claim)) =
        some false) :
    ∃ history,
      Runs.exec? (callStep sampleDeployment) (.deployed .initial)
          [.expose surroundings sampleBlobParams] = some history ∧
        history.exposer.record.getExposure
            (sampleDeployment.messageId sampleBlobParams.claim) =
          .error .notExposed := by
  obtain ⟨history, executed, absent⟩ := Option.map_eq_some_iff.mp sent
  exact ⟨history, executed, if_neg (of_decide_eq_false absent)⟩

/-- The first to record a message id decides its entry; and an exposure whose
record runs out of gas, or carries no time, has none. -/
theorem record_forestalled :
    sampleDeployment.records = true ∧
      (∃ history,
        Runs.exec? (callStep sampleDeployment) (.deployed .initial)
            forestallingCalls = some history ∧
          history.exposer.record.getExposure
              (sampleDeployment.messageId sampleBlobParams.claim) =
            .ok forestallingEntry ∧
          forestallingEntry.sender ≠ sampleBlobParams.claim.sender ∧
          forestallingEntry.timestamp ≠
            sampleBlobParams.claim.msgTimestamp) ∧
      (∃ history,
        Runs.exec? (callStep sampleDeployment) (.deployed .initial)
            [.expose { sampleSurroundings with recordOutOfGas := true }
              sampleBlobParams] = some history ∧
          history.exposer.record.getExposure
              (sampleDeployment.messageId sampleBlobParams.claim) =
            .error .notExposed) ∧
      ∃ history,
        Runs.exec? (callStep sampleDeployment) (.deployed .initial)
            [.expose { sampleSurroundings with blockTimestamp := 0 }
              sampleBlobParams] = some history ∧
          history.exposer.record.getExposure
              (sampleDeployment.messageId sampleBlobParams.claim) =
            .error .notExposed := by
  have sent :
      (Runs.exec? (callStep sampleDeployment) (.deployed .initial)
          forestallingCalls).map (fun history =>
        history.exposer.record.exposures
          (sampleDeployment.messageId sampleBlobParams.claim)) =
        some forestallingEntry := by
    decide +kernel
  obtain ⟨history, executed, isEntry⟩ := Option.map_eq_some_iff.mp sent
  refine ⟨rfl, ⟨history, executed, ?_, by decide +kernel,
    by decide +kernel⟩, unrecorded_sample (by decide +kernel),
    unrecorded_sample (by decide +kernel)⟩
  unfold ExposureRecord.getExposure
  rw [isEntry]
  rfl

/-- A message that nobody has recorded before. -/
theorem sample_recorded :
    ∃ final : History,
      Runs.exec? (callStep sampleDeployment) (.deployed .initial)
          [.expose sampleSurroundings sampleBlobParams] = some final ∧
        final.exposer.record.getExposure
            (sampleDeployment.messageId sampleBlobParams.claim) =
          .ok (entryOf sampleDeployment sampleSurroundings
            sampleBlobParams.claim) := by
  have sent :
      (Runs.exec? (callStep sampleDeployment) (.deployed .initial)
        [.expose sampleSurroundings sampleBlobParams]).isSome = true := by
    decide +kernel
  obtain ⟨final, executed⟩ := Option.isSome_iff_exists.mp sent
  exact ⟨final, executed,
    (exposure_recorded sampleDeployment rfl _ _ _ _ executed).1
      sampleSurroundings sampleBlobParams.claim rfl
      ⟨rfl, by decide, rfl⟩⟩

end BLSExposer

end Bam
