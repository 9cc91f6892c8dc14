import Bam.Poster.Submit
import Bam.Sdk.AbiBatch

namespace Bam

/-!
# The wire encodings of the command line

`POSTER_BATCH_ENCODING` chooses the encoder of the aggregator and the size
estimator of its policy.  The decoder of the self-check is not chosen with it.
-/

/-- `POSTER_BATCH_ENCODING`. -/
inductive WireEncoding where
  | binary
  | abi
  deriving Repr, DecidableEq

/-- `aggregatorEncodeBatch` of `runCli`. -/
def aggregatorEncodeBatch
    (encodeAbiParameters : EncodeAbiParameters) :
    WireEncoding → Option BatchEncoder
  | .binary => none
  | .abi => some (encodeBatchABI encodeAbiParameters)

/-- `batchPolicy` of `runCli`, with the default `createPoster` fills in. -/
def batchPolicyOf : WireEncoding → BatchPolicy
  | .binary => defaultBatchPolicy .empty
  | .abi =>
      defaultBatchPolicy
        { DefaultBatchPolicyConfig.empty with
          estimateBatchSize := some estimateBatchSizeABI }

/-- The aggregator with one of the two encoders and the default capacities. -/
def wiredOptions
    (encodeAbiParameters : EncodeAbiParameters)
    (encoding : WireEncoding)
    (policy : BatchPolicy)
    (tags : List Bytes32)
    (maxTagsPerPack blobCapacityBytes : Nat) : AggregatorOptions where
  policy := policy
  tags := tags
  maxTagsPerPack := maxTagsPerPack
  capacityFEs := none
  capacityBytes := none
  blobCapacityBytes := blobCapacityBytes
  encodeBatch := aggregatorEncodeBatch encodeAbiParameters encoding

/-- The aggregator as `runCli` wires it. -/
def cliOptions
    (encodeAbiParameters : EncodeAbiParameters)
    (encoding : WireEncoding)
    (tags : List Bytes32) : AggregatorOptions :=
  wiredOptions encodeAbiParameters encoding (batchPolicyOf encoding)
    tags 8 DEFAULT_BLOB_CAPACITY_BYTES

/-- The assembled blob of a pack passes the self-check, and the submission is
not stopped before its broadcast. -/
def PassesSelfCheck
    (decompress : Bytes → Except BatchError Bytes)
    (commitToBlob : Bytes → Bytes32)
    (pack : PackResult) : Prop :=
  (∃ assembled,
    assembleMultiSegmentBlob
        (pack.plan.included.map PackPlanIncluded.toInput) =
      .ok assembled ∧
    verifyPackedBlobRoundTrips decompress assembled.blob pack.plan
      pack.selection? = .ok ()) ∧
  ∃ prepared, prepareSubmission decompress commitToBlob pack = .ok prepared

section Wired

variable {encodeAbiParameters : EncodeAbiParameters}
variable {policy : BatchPolicy}
variable {tags : List Bytes32}
variable {maxTagsPerPack blobCapacityBytes : Nat}
variable {state next : AggregatorState}
variable {input : AggregatorTickInput}
variable {pack : PackResult}

/-- Every binary pack passes the self-check. -/
theorem binary_passesSelfCheck
    (decompress : Bytes → Except BatchError Bytes)
    (commitToBlob : Bytes → Bytes32)
    (ticked :
      aggregatorTick
          (wiredOptions encodeAbiParameters .binary policy tags
            maxTagsPerPack blobCapacityBytes) state input =
        .ok (next, some pack))
    (nonempty : pack.plan.included ≠ []) :
    PassesSelfCheck decompress commitToBlob pack := by
  obtain ⟨fired, passengers, planned⟩ := aggregatorTick_some ticked
  have inBlob :
      defaultPackCapacity.maxFEs ≤ FIELD_ELEMENTS_PER_BLOB :=
    Nat.le_refl _
  have isPlan := planned.isPlan
  simp only [planEntries, wiredOptions, AggregatorOptions.capacity,
    Option.getD_none] at isPlan
  obtain ⟨assembled, assembles, ranges⟩ :=
    @assemble_planPack defaultPackCapacity inBlob
      ((sortSelections
        ((fired ++ passengers).map Enriched.selection)).take
          (max 1 maxTagsPerPack))
  have valid : validatePackPlanInvariants pack.plan = .ok () := by
    rw [isPlan]
    exact validateSegments_packLoop inBlob 0 0 _ 0 (Nat.le_refl _)
  have verified :
      verifyPackedBlobRoundTrips decompress assembled.blob pack.plan
        pack.selection? = .ok () := by
    rw [verifyPackedBlobRoundTrips, verifySegments_ok_iff]
    intro segment included
    obtain ⟨original, selected, samePayload, -, encoded⟩ :=
      original_of_planned planned included
    have inPlan := included
    rw [planned.isPlan] at inPlan
    have small := (planEntries_included inPlan).2.2.2.2
    rw [isPlan] at included
    obtain ⟨sliced, extracted, isHead⟩ :=
      extract_planned inBlob assembles included
    simp only [AggregatorOptions.encode, wiredOptions,
      aggregatorEncodeBatch, Option.getD_none, encodeBatchData]
      at encoded
    split at encoded
    · cases encoded
    rename_i batch succeeded
    have isPayload := Except.ok.inj encoded
    have size := length_encodeBatch succeeded
    have short :
        estimateBatchSize
            (original.messages.map DecodedMessage.toBAMMessage) ≤
          MAX_UINT32 := by
      rw [← size, isPayload, samePayload]
      exact Nat.le_trans small
        (show USABLE_BYTES_PER_BLOB ≤ MAX_UINT32 by decide)
    have decodes :=
      decodeBatch_encodeBatch decompress succeeded short []
    rw [List.append_nil, isPayload] at decodes
    rw [verifySegment_ok_iff]
    refine ⟨original, sliced, _, selected, extracted, ?_, decodes, ?_⟩
    · rw [samePayload]
      exact isHead
    · exact List.length_map _
  have assemblesPack :
      assembleMultiSegmentBlob
          (pack.plan.included.map PackPlanIncluded.toInput) =
        .ok assembled := by
    rw [isPlan]
    exact assembles
  have rangesAgree :
      compareRanges pack.plan.included assembled.segments = .ok () := by
    rw [ranges, ← isPlan]
    exact compareRanges_toAssembled _
  refine ⟨⟨assembled, assemblesPack, verified⟩, ?_⟩
  rw [prepareSubmission, if_neg nonempty, valid]
  dsimp only
  rw [assemblesPack]
  dsimp only
  rw [rangesAgree]
  dsimp only
  rw [verified]
  exact ⟨_, rfl⟩

/-- No ABI pack passes the self-check. -/
theorem abi_fails_selfCheck
    (standard : StandardAbi encodeAbiParameters)
    (decompress : Bytes → Except BatchError Bytes)
    (ticked :
      aggregatorTick
          (wiredOptions encodeAbiParameters .abi policy tags
            maxTagsPerPack blobCapacityBytes) state input =
        .ok (next, some pack))
    (nonempty : pack.plan.included ≠ [])
    (blob : Bytes) :
    verifyPackedBlobRoundTrips decompress blob pack.plan
      pack.selection? ≠ .ok () := by
  obtain ⟨fired, passengers, planned⟩ := aggregatorTick_some ticked
  obtain ⟨segment, rest, isIncluded⟩ :=
    List.exists_cons_of_ne_nil nonempty
  have included : segment ∈ pack.plan.included :=
    isIncluded ▸ List.mem_cons_self
  obtain ⟨original, selected, -, someMessages, encoded⟩ :=
    original_of_planned planned included
  intro verified
  rw [verifyPackedBlobRoundTrips, verifySegments_ok_iff] at verified
  obtain ⟨checked, sliced, decoded, isOriginal, -, -, decodes, -⟩ :=
    verifySegment_ok_iff.mp (verified segment included)
  rw [selected, Option.some.injEq] at isOriginal
  subst isOriginal
  exact decodeBatch_encodeBatchABI standard (by simpa using someMessages)
    encoded decompress decoded decodes

/--
A nonempty pack passes the self-check exactly if the Poster is configured with
the binary encoding, whatever the policy, the tags and the pools.
-/
theorem passesSelfCheck_iff_binary
    (standard : StandardAbi encodeAbiParameters)
    (decompress : Bytes → Except BatchError Bytes)
    (commitToBlob : Bytes → Bytes32)
    {encoding : WireEncoding}
    (ticked :
      aggregatorTick
          (wiredOptions encodeAbiParameters encoding policy tags
            maxTagsPerPack blobCapacityBytes) state input =
        .ok (next, some pack))
    (nonempty : pack.plan.included ≠ []) :
    PassesSelfCheck decompress commitToBlob pack ↔
      encoding = .binary := by
  cases encoding with
  | binary =>
      simp only [iff_true]
      exact binary_passesSelfCheck decompress commitToBlob ticked nonempty
  | abi =>
      simp only [reduceCtorEq, iff_false]
      rintro ⟨⟨assembled, -, verified⟩, -⟩
      exact abi_fails_selfCheck standard decompress ticked nonempty
        assembled.blob verified

end Wired

/-- One pending message that has waited for the age trigger. -/
def oneMessagePool : AggregatorTickInput where
  pool := fun tag =>
    if tag = 0x7a then
      [{ sender := 0x5e
         nonce := 0
         contents := [0x68, 0x69]
         contentTag := 0x7a
         signature := List.replicate 65 0x01
         messageHash := 0x01
         ingestedAt := some 0 }]
    else []
  now := 60000

/-- The tick of the command line's aggregator over that message. -/
def oneMessageTick
    (encoding : WireEncoding) :
    Except AggregatorError (AggregatorState × Option PackResult) :=
  aggregatorTick (cliOptions Abi.encodeSequence encoding [0x7a])
    (fun _ => ⟨0, none, 0⟩) oneMessagePool

theorem oneMessageTick_plans
    (encoding : WireEncoding) :
    ∃ next pack,
      oneMessageTick encoding = .ok (next, some pack) ∧
        pack.plan.included ≠ [] := by
  have planned :
      (match oneMessageTick encoding with
        | .ok (_, some pack) => pack.plan.included.length
        | _ => 0) = 1 := by
    cases encoding <;> decide +kernel
  split at planned
  · rename_i next pack ticked
    refine ⟨next, pack, ticked, ?_⟩
    intro empty
    rw [empty] at planned
    cases planned
  · cases planned

/-- A binary pack of one message passes. -/
theorem passesSelfCheck_one_message :
    ∃ next pack,
      oneMessageTick .binary = .ok (next, some pack) ∧
        (PassesSelfCheck (fun _ => .error .decompression) (fun _ => 0)
            pack ↔
          WireEncoding.binary = .binary) := by
  obtain ⟨next, pack, ticked, nonempty⟩ := oneMessageTick_plans .binary
  exact ⟨next, pack, ticked,
    passesSelfCheck_iff_binary (fun _ => rfl) _ _ ticked nonempty⟩

/-- An ABI pack of one message is refused: the aggregator stops for good. -/
theorem abi_pack_refused :
    ∃ next pack,
      oneMessageTick .abi = .ok (next, some pack) ∧
        pack.plan.included ≠ [] ∧
        ∀ decompress commitToBlob blob,
          verifyPackedBlobRoundTrips decompress blob pack.plan
              pack.selection? ≠ .ok () ∧
            ∀ prepared,
              prepareSubmission decompress commitToBlob pack ≠
                .ok prepared := by
  obtain ⟨next, pack, ticked, nonempty⟩ := oneMessageTick_plans .abi
  refine ⟨next, pack, ticked, nonempty, ?_⟩
  intro decompress commitToBlob blob
  have refused :=
    abi_fails_selfCheck (fun _ => rfl) decompress ticked nonempty
  refine ⟨refused blob, ?_⟩
  intro prepared isPrepared
  unfold prepareSubmission at isPrepared
  split at isPrepared
  · cases isPrepared
  split at isPrepared
  · cases isPrepared
  split at isPrepared
  · cases isPrepared
  rename_i assembled _
  split at isPrepared
  · cases isPrepared
  split at isPrepared
  · cases isPrepared
  · rename_i verified
    exact refused assembled.blob verified

end Bam
