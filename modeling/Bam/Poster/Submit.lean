import Mathlib.Data.List.Infix
import Bam.Poster.SelfCheck

namespace Bam

/-!
# Building and submitting a packed transaction

`buildAndSubmitMulti` in two halves.  Before the broadcast everything is pure
and every failure is permanent.  From the broadcast on, the transport decides,
and its errors are classified by their text.
-/

/-- What fails before the broadcast; each of these is a permanent outcome. -/
inductive PreBroadcastError where
  | emptyPack
  | planInvariant (error : PackPlanError)
  | assembly (error : BlobError)
  | selfCheck (error : SelfCheckError)
  deriving Repr, DecidableEq

/-- A blob ready to be broadcast and its versioned hash. -/
structure PreparedBlob where
  blob : Bytes
  blobVersionedHash : Bytes32
  deriving Repr, DecidableEq

/-- The comparison of planned with assembled ranges. -/
def compareRanges :
    List PackPlanIncluded → List AssembledSegment →
      Except SelfCheckError Unit
  | planned :: plannedRest, assembled :: assembledRest =>
      if planned.startFE ≠ assembled.startFE ∨
          planned.endFE ≠ assembled.endFE then
        .error (.mismatch planned.contentTag
          (.planVsAssembly
            (planned.startFE, planned.endFE)
            (assembled.startFE, assembled.endFE)))
      else compareRanges plannedRest assembledRest
  | _, _ => .ok ()

/-- `buildAndSubmitMulti` up to the broadcast. -/
def prepareSubmission
    (decompress : Bytes → Except BatchError Bytes)
    (commitToBlob : Bytes → Bytes32)
    (pack : PackResult) : Except PreBroadcastError PreparedBlob :=
  if pack.plan.included = [] then .error .emptyPack
  else
    match validatePackPlanInvariants pack.plan with
    | .error error => .error (.planInvariant error)
    | .ok () =>
        match assembleMultiSegmentBlob
            (pack.plan.included.map PackPlanIncluded.toInput) with
        | .error error => .error (.assembly error)
        | .ok assembled =>
            match compareRanges pack.plan.included assembled.segments with
            | .error error => .error (.selfCheck error)
            | .ok () =>
                match verifyPackedBlobRoundTrips decompress
                    assembled.blob pack.plan pack.selection? with
                | .error error => .error (.selfCheck error)
                | .ok () =>
                    .ok {
                      blob := assembled.blob
                      blobVersionedHash :=
                        commitToBlob assembled.blob }

/-- The text of an error the transport throws. -/
abbrev ErrorText := String

/-- A transport error: worth another try, or not. -/
inductive SubmissionErrorKind where
  | retryable
  | permanent
  deriving Repr, DecidableEq

/-- `\b` after a match: the end of the text or no word character. -/
def atWordBoundary : List Char → Bool
  | [] => true
  | next :: _ => !(next.isAlphanum || next = '_')

/-- `/abi\b/`. -/
def matchesAbi : List Char → Bool
  | [] => false
  | first :: rest =>
      (List.isPrefixOf ['a', 'b', 'i'] (first :: rest) &&
          atWordBoundary ((first :: rest).drop 3)) ||
        matchesAbi rest

/-- The patterns of `PERMANENT_ERROR_PATTERNS` without a word boundary. -/
def PERMANENT_ERROR_PATTERNS : List String :=
  ["execution reverted", "invalid opcode", "invalid signature",
    "contract does not exist", "out of gas"]

/-- `classifySubmissionError`. -/
def classifySubmissionError (text : ErrorText) : SubmissionErrorKind :=
  let lower := text.toList.map Char.toLower
  if PERMANENT_ERROR_PATTERNS.any
        (fun pattern => decide (pattern.toList <:+: lower)) ||
      matchesAbi lower then
    .permanent
  else .retryable

/-- One included tag of a submitted pack. -/
structure PackedSubmitIncludedEntry where
  contentTag : Bytes32
  startFE : Nat
  endFE : Nat
  messages : List DecodedMessage
  deriving Repr, DecidableEq

/-- The receipt the transport hands back: `waitForReceipt` keeps the position
of the transaction and drops its execution status. -/
structure SubmitReceipt where
  blockNumber : Nat
  transactionIndex : Nat
  deriving Repr, DecidableEq

/-- The receipt of the node behind the transport. -/
structure TransactionReceipt where
  status : Bool
  blockNumber : Nat
  transactionIndex : Nat
  deriving Repr, DecidableEq

/-- `viemTransport.waitForReceipt` over the node's receipt. -/
def waitForReceipt (receipt : TransactionReceipt) : SubmitReceipt where
  blockNumber := receipt.blockNumber
  transactionIndex := receipt.transactionIndex

/-- The `included` outcome. -/
structure PackedSubmitIncluded where
  txHash : Bytes32
  blockNumber : Nat
  txIndex : Nat
  blobVersionedHash : Bytes32
  submitter : Address
  entries : List PackedSubmitIncludedEntry
  deriving Repr, DecidableEq

/-- The entries of an `included` outcome. -/
def submittedEntries
    (pack : PackResult) : List PackedSubmitIncludedEntry :=
  pack.plan.included.map fun segment =>
    { contentTag := segment.contentTag
      startFE := segment.startFE
      endFE := segment.endFE
      messages :=
        match pack.selection? segment.contentTag with
        | none => []
        | some selection => selection.messages }

/-- The outcome once the receipt is there. -/
def includedOutcome
    (pack : PackResult)
    (txHash blobVersionedHash : Bytes32)
    (submitter : Address)
    (receipt : SubmitReceipt) : PackedSubmitIncluded where
  txHash := txHash
  blockNumber := receipt.blockNumber
  txIndex := receipt.transactionIndex
  blobVersionedHash := blobVersionedHash
  submitter := submitter
  entries := submittedEntries pack

/-- Planned ranges agree with the ranges of a layout built from them. -/
theorem compareRanges_toAssembled
    (segments : List PackPlanIncluded) :
    compareRanges segments
      (segments.map PackPlanIncluded.toAssembled) = .ok () := by
  induction segments with
  | nil =>
      rfl
  | cons segment rest inductionHypothesis =>
      rw [List.map_cons, compareRanges,
        if_neg (by simp [PackPlanIncluded.toAssembled])]
      exact inductionHypothesis

/-- Assembly of a plan within one blob gives the plan's own ranges. -/
theorem assemble_planPack
    {capacity : PackCapacity}
    (inBlob : capacity.maxFEs ≤ FIELD_ELEMENTS_PER_BLOB)
    (selections : List PerTagSelection) :
    ∃ assembled,
      assembleMultiSegmentBlob
          ((planPack selections capacity).included.map
            PackPlanIncluded.toInput) = .ok assembled ∧
        assembled.segments =
          (planPack selections capacity).included.map
            PackPlanIncluded.toAssembled := by
  obtain ⟨written, laid⟩ := layoutSegments_packLoop inBlob 0 0
    (sortSelections selections)
  rw [planPack, assembleMultiSegmentBlob, laid]
  exact ⟨_, rfl, rfl⟩

/-- Every planned segment is read back from the assembled blob, padded. -/
theorem extract_planned
    {capacity : PackCapacity}
    (inBlob : capacity.maxFEs ≤ FIELD_ELEMENTS_PER_BLOB)
    {selections : List PerTagSelection}
    {assembled : AssembledMultiSegmentBlob}
    (assembles :
      assembleMultiSegmentBlob
          ((planPack selections capacity).included.map
            PackPlanIncluded.toInput) = .ok assembled)
    {segment : PackPlanIncluded}
    (included : segment ∈ (planPack selections capacity).included) :
    ∃ sliced,
      extractSegmentBytes assembled.blob segment.startFE
          segment.endFE = .ok sliced ∧
        sliced.take segment.payloadBytes.length =
          segment.payloadBytes := by
  obtain ⟨written, laid, isBlob⟩ :=
    assembleMultiSegmentBlob_ok assembles
  obtain ⟨other, expected⟩ := layoutSegments_packLoop inBlob 0 0
    (sortSelections selections)
  have placedAll := layoutSegments_placed laid
  have isPlaced :
      assembled.segments =
        (planPack selections capacity).included.map
          PackPlanIncluded.toAssembled := by
    have same := expected.symm.trans laid
    exact (Prod.mk.inj (Except.ok.inj same)).2.symm
  rw [isPlaced, List.forall₂_map_left_iff,
    List.forall₂_map_right_iff, List.forall₂_same] at placedAll
  have placed := placedAll segment included
  obtain ⟨wide, fits⟩ := layoutSegments_written laid
  have writtenFits := fits (Nat.zero_le _)
  rw [Nat.zero_add] at writtenFits
  have positive := (packLoop_included included).2.1
  refine ⟨_, extractSegmentBytes_placed wide writtenFits isBlob placed
    (feCountForPayload_pos.mp positive), ?_⟩
  exact List.take_left

end Bam
