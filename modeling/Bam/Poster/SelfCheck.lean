import Bam.Poster.Aggregator

namespace Bam

/-!
# The self-check before a broadcast

`verifyPackedBlobRoundTrips` reads every planned segment back from the
assembled blob, compares it with the payload the aggregator encoded, and
decodes it with the binary `decodeBatch`, whichever encoder was configured.
-/

/-- The reasons of a `PackSelfCheckMismatch`. -/
inductive SelfCheckReason where
  | noMatchingOriginalSelection
  | sliceBytesMismatch
  | decodeThrow (error : BatchError)
  | messageCount (decoded original : Nat)
  | planVsAssembly (plan assembled : Nat × Nat)
  deriving Repr, DecidableEq

/-- What the self-check throws. -/
inductive SelfCheckError where
  | mismatch (contentTag : Bytes32) (reason : SelfCheckReason)
  | extract (error : BlobError)
  deriving Repr, DecidableEq

/-- The check of one segment against its original selection. -/
def verifySegment
    (decompress : Bytes → Except BatchError Bytes)
    (blob : Bytes)
    (segment : PackPlanIncluded)
    (original? : Option AggregatorBatchSelection) :
    Except SelfCheckError Unit :=
  match original? with
  | none =>
      .error (.mismatch segment.contentTag .noMatchingOriginalSelection)
  | some original =>
      match extractSegmentBytes blob segment.startFE segment.endFE with
      | .error error => .error (.extract error)
      | .ok sliced =>
          let head := sliced.take original.payloadBytes.length
          if head ≠ original.payloadBytes then
            .error (.mismatch segment.contentTag .sliceBytesMismatch)
          else
            match decodeBatch decompress head with
            | .error error =>
                .error (.mismatch segment.contentTag
                  (.decodeThrow error))
            | .ok decoded =>
                if decoded.messages.length ≠
                    original.messages.length then
                  .error (.mismatch segment.contentTag
                    (.messageCount decoded.messages.length
                      original.messages.length))
                else .ok ()

/-- The loop of `verifyPackedBlobRoundTrips`. -/
def verifySegments
    (decompress : Bytes → Except BatchError Bytes)
    (blob : Bytes)
    (originals : Bytes32 → Option AggregatorBatchSelection) :
    List PackPlanIncluded → Except SelfCheckError Unit
  | [] => .ok ()
  | segment :: rest =>
      match verifySegment decompress blob segment
          (originals segment.contentTag) with
      | .error error => .error error
      | .ok () => verifySegments decompress blob originals rest

/-- `verifyPackedBlobRoundTrips`. -/
def verifyPackedBlobRoundTrips
    (decompress : Bytes → Except BatchError Bytes)
    (blob : Bytes)
    (plan : PackPlan)
    (originalSelections : Bytes32 → Option AggregatorBatchSelection) :
    Except SelfCheckError Unit :=
  verifySegments decompress blob originalSelections plan.included

/-- A segment passes exactly if its slice starts with the original payload and
that payload decodes to as many messages as were packed. -/
theorem verifySegment_ok_iff
    {decompress : Bytes → Except BatchError Bytes}
    {blob : Bytes}
    {segment : PackPlanIncluded}
    {original? : Option AggregatorBatchSelection} :
    verifySegment decompress blob segment original? = .ok () ↔
      ∃ original sliced decoded,
        original? = some original ∧
        extractSegmentBytes blob segment.startFE segment.endFE =
          .ok sliced ∧
        sliced.take original.payloadBytes.length =
          original.payloadBytes ∧
        decodeBatch decompress original.payloadBytes = .ok decoded ∧
        decoded.messages.length = original.messages.length := by
  cases original? with
  | none =>
      simp [verifySegment]
  | some original =>
      cases extracted :
          extractSegmentBytes blob segment.startFE segment.endFE with
      | error error =>
          simp [verifySegment, extracted]
      | ok sliced =>
          by_cases same :
              sliced.take original.payloadBytes.length =
                original.payloadBytes
          · cases decodes :
                decodeBatch decompress original.payloadBytes with
            | error error =>
                simp [verifySegment, extracted, same, decodes]
            | ok decoded =>
                simp [verifySegment, extracted, same, decodes]
          · simp [verifySegment, extracted, same]

/-- A plan passes exactly if each of its segments does. -/
theorem verifySegments_ok_iff
    {decompress : Bytes → Except BatchError Bytes}
    {blob : Bytes}
    {originals : Bytes32 → Option AggregatorBatchSelection}
    {segments : List PackPlanIncluded} :
    verifySegments decompress blob originals segments = .ok () ↔
      ∀ segment ∈ segments,
        verifySegment decompress blob segment
          (originals segment.contentTag) = .ok () := by
  induction segments with
  | nil =>
      simp [verifySegments]
  | cons segment rest inductionHypothesis =>
      rw [verifySegments, List.forall_mem_cons, ← inductionHypothesis]
      cases verifySegment decompress blob segment
          (originals segment.contentTag) with
      | error error =>
          simp
      | ok result =>
          simp

/-- A mirrored selection is found under its segment's tag. -/
theorem selection?_of_mirrored
    {entries : List Enriched}
    {segments : List PackPlanIncluded}
    {batches : List AggregatorBatchSelection}
    (mirrored :
      List.Forall₂
        (fun segment batch =>
          enrichedGet entries segment.contentTag = some batch)
        segments batches)
    {segment : PackPlanIncluded}
    (member : segment ∈ segments) :
    ∃ batch,
      (batches.find? fun selection =>
          selection.contentTag = segment.contentTag) = some batch ∧
        enrichedGet entries segment.contentTag = some batch := by
  induction mirrored with
  | nil =>
      cases member
  | @cons first batch rest later found _ inductionHypothesis =>
      obtain ⟨entry, -, -, batchTag⟩ := enrichedGet_some found
      by_cases sameTag : first.contentTag = segment.contentTag
      · refine ⟨batch, ?_, sameTag ▸ found⟩
        rw [List.find?_cons_of_pos]
        simpa [batchTag] using sameTag
      · have inRest : segment ∈ rest := by
          rcases List.mem_cons.mp member with isFirst | inRest
          · exact absurd (congrArg _ isFirst.symm) sameTag
          · exact inRest
        obtain ⟨other, isFound, isEntry⟩ := inductionHypothesis inRest
        refine ⟨other, ?_, isEntry⟩
        rw [List.find?_cons_of_neg]
        · exact isFound
        · simpa [batchTag] using sameTag

/-- Entries of one tag of one tick carry the same payload: a tag is picked
either by its trigger or as a passenger, and both are functions of the tag. -/
theorem entries_of_tag_agree
    {opts : AggregatorOptions}
    {input : AggregatorTickInput}
    {pack : PackResult}
    {fired passengers : List Enriched}
    (planned : Planned opts input pack fired passengers)
    {first second : Enriched}
    (firstMember : first ∈ fired ++ passengers)
    (secondMember : second ∈ fired ++ passengers)
    (sameTag :
      first.selection.contentTag = second.selection.contentTag) :
    first = second := by
  have inFiredOf :
      ∀ {entry}, entry ∈ fired →
        triggerOf opts input entry.selection.contentTag =
          .ok (some entry) := by
    intro entry inFired
    obtain ⟨tag, -, step⟩ :=
      (mem_collect planned.firedCollected).mp inFired
    obtain ⟨messages, -, -, -, enriched⟩ := enrichPicked_some step
    obtain ⟨data, -, isTag, -⟩ := enrich_ok enriched
    rw [isTag]
    exact step
  have passengerOfTag :
      ∀ {entry}, entry ∈ passengers →
        passengerOf opts input
            (fired.map fun other => other.selection.contentTag)
            entry.selection.contentTag = .ok (some entry) := by
    intro entry inPassengers
    obtain ⟨tag, -, step⟩ :=
      (mem_collect planned.passengersCollected).mp inPassengers
    have enrichedStep := step
    unfold passengerOf at enrichedStep
    split at enrichedStep
    · cases enrichedStep
    obtain ⟨messages, -, -, -, enriched⟩ :=
      enrichPicked_some enrichedStep
    obtain ⟨data, -, isTag, -⟩ := enrich_ok enriched
    rw [isTag]
    exact step
  have apart :
      ∀ {entry other}, entry ∈ fired → other ∈ passengers →
        entry.selection.contentTag ≠ other.selection.contentTag := by
    intro entry other inFired inPassengers same
    have step := passengerOfTag inPassengers
    rw [passengerOf, if_pos] at step
    · cases step
    · rw [← same]
      exact List.mem_map_of_mem inFired
  rcases List.mem_append.mp firstMember with firstFired | firstRides
  · rcases List.mem_append.mp secondMember with secondFired | secondRides
    · have firstStep := inFiredOf firstFired
      rw [sameTag, inFiredOf secondFired] at firstStep
      exact (Option.some.inj (Except.ok.inj firstStep)).symm
    · exact absurd sameTag (apart firstFired secondRides)
  · rcases List.mem_append.mp secondMember with secondFired | secondRides
    · exact absurd sameTag.symm (apart secondFired firstRides)
    · have firstStep := passengerOfTag firstRides
      rw [sameTag, passengerOfTag secondRides] at firstStep
      exact (Option.some.inj (Except.ok.inj firstStep)).symm

/-- The original selection of a planned segment: the messages the tick packed
under the segment's tag and the payload they encode to. -/
theorem original_of_planned
    {opts : AggregatorOptions}
    {input : AggregatorTickInput}
    {pack : PackResult}
    {fired passengers : List Enriched}
    (planned : Planned opts input pack fired passengers)
    {segment : PackPlanIncluded}
    (included : segment ∈ pack.plan.included) :
    ∃ original,
      pack.selection? segment.contentTag = some original ∧
      original.payloadBytes = segment.payloadBytes ∧
      original.messages ≠ [] ∧
      opts.encode
          (original.messages.map DecodedMessage.toBAMMessage)
          (original.messages.map DecodedMessage.signature) =
        .ok original.payloadBytes := by
  obtain ⟨original, selected, isEntry⟩ :=
    selection?_of_mirrored planned.mirrored included
  obtain ⟨entry, entryMember, rfl, batchTag⟩ := enrichedGet_some isEntry
  obtain ⟨tag, -, messages, -, nonempty, -, enriched⟩ :=
    entry_facts planned.firedCollected planned.passengersCollected
      entryMember
  obtain ⟨data, encoded, sameTag, samePayload, -, isBatch⟩ :=
    enrich_ok enriched
  have inPlan := included
  rw [planned.isPlan] at inPlan
  obtain ⟨⟨source, sourceMember, sourceTag, sourcePayload⟩, -⟩ :=
    planEntries_included inPlan
  have entryTag :
      entry.selection.contentTag = source.selection.contentTag := by
    rw [sourceTag, ← batchTag]
    exact (enrich_payload enriched).1.symm
  have sameEntry :=
    entries_of_tag_agree planned entryMember sourceMember entryTag
  refine ⟨entry.batch, selected, ?_, ?_, ?_⟩
  · rw [← sourcePayload, ← sameEntry]
    exact (enrich_payload enriched).2
  · rw [isBatch]
    exact nonempty
  · rw [isBatch]
    exact encoded

end Bam
