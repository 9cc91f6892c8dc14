import Bam.Poster.WireEncoding
import Bam.System.Steps

namespace Bam

/-!
# Ticks of a Poster with the default encoder

With the default encoder and capacities no self-check fails, so a tick that
plans a pack goes on to its broadcast.  `planStep` is the Poster's step with the
blob of a tick left unbuilt.
-/

/-- The blob of a pack. -/
def PackResult.blob (pack : PackResult) : Bytes :=
  match assembleMultiSegmentBlob
      (pack.plan.included.map PackPlanIncluded.toInput) with
  | .ok assembled => assembled.blob
  | .error _ => []

/-- `tickStart` without the checks before the broadcast. -/
def World.planTick
    (config : SystemConfig)
    (world : World)
    (now : Int) : World :=
  if world.permanentlyStopped then world
  else
    match snapshotPools world.store config.aggregator.tags with
    | .error _ => world
    | .ok pool =>
        match aggregatorTick config.aggregator world.aggregatorState
            { pool, now } with
        | .error _ => world
        | .ok (state, none) => { world with aggregatorState := state }
        | .ok (state, some pack) =>
            if pack.plan.included = [] then
              { world with aggregatorState := state }
            else
              { world with
                aggregatorState := state
                ticks := world.ticks ++ [
                  { pack := pack
                    blobVersionedHash := config.commitToBlob pack.blob
                    recordedBefore := world.recorded }] }

/-- A step of the Poster without the checks before the broadcast. -/
def planStep
    (config : SystemConfig)
    (world : World) : PosterEvent → Option World
  | .tickStart now => some (world.planTick config now)
  | event => posterStep config world event

/-- The blob of a pack is the one its submission broadcasts. -/
theorem blobVersionedHash_prepareSubmission
    {decompress : Bytes → Except BatchError Bytes}
    {commitToBlob : Bytes → Bytes32}
    {pack : PackResult}
    {prepared : PreparedBlob}
    (succeeded :
      prepareSubmission decompress commitToBlob pack = .ok prepared) :
    prepared.blobVersionedHash = commitToBlob pack.blob := by
  unfold prepareSubmission at succeeded
  split at succeeded
  · cases succeeded
  split at succeeded
  · cases succeeded
  split at succeeded
  · cases succeeded
  rename_i assembled isAssembled
  split at succeeded
  · cases succeeded
  split at succeeded
  · cases succeeded
  have isPrepared := Except.ok.inj succeeded
  rw [← isPrepared, PackResult.blob, isAssembled]

/-- The self-check stops no tick of a Poster with the default encoder and
capacities. -/
theorem tickStart_eq_planTick
    {config : SystemConfig}
    (defaultFEs : config.capacityFEs = none)
    (defaultBytes : config.capacityBytes = none)
    (world : World)
    (now : Int) :
    world.tickStart config now = world.planTick config now := by
  have wired :
      config.aggregator =
        wiredOptions (fun _ => []) .binary
          (defaultBatchPolicy config.policy) config.ingest.allowlistedTags
          config.maxTagsPerPack config.blobCapacityBytes := by
    rw [SystemConfig.aggregator, defaultFEs, defaultBytes]
    rfl
  simp only [World.tickStart, World.planTick]
  cases snapshotPools world.store config.aggregator.tags with
  | error error =>
      rfl
  | ok pool =>
      dsimp only
      cases ticked :
          aggregatorTick config.aggregator world.aggregatorState
            { pool, now } with
      | error error =>
          rfl
      | ok result =>
          obtain ⟨state, planned⟩ := result
          cases planned with
          | none =>
              rfl
          | some pack =>
              dsimp only
              by_cases empty : pack.plan.included = []
              · rw [if_pos empty, if_pos empty]
              · rw [wired] at ticked
                obtain ⟨-, prepared, succeeded⟩ :=
                  binary_passesSelfCheck config.libraries.decompress
                    config.commitToBlob ticked empty
                rw [if_neg empty, if_neg empty, succeeded]
                dsimp only
                rw [blobVersionedHash_prepareSubmission succeeded]

/-- A Poster with the default encoder and capacities steps without failed
checks. -/
theorem posterStep_eq_planStep
    {config : SystemConfig}
    (defaultFEs : config.capacityFEs = none)
    (defaultBytes : config.capacityBytes = none) :
    posterStep config = planStep config := by
  funext world event
  cases event with
  | tickStart now =>
      simp only [posterStep, planStep,
        tickStart_eq_planTick defaultFEs defaultBytes]
  | _ =>
      rfl

end Bam
