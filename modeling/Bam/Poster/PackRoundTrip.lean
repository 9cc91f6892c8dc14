import Bam.Poster.Submit
import Bam.Sdk.BatchCanonical

namespace Bam

/-!
# A packed blob read back

What the planner plans, the assembler lays out, the slicer cuts and the decoder
reads: for selections encoded by the binary codec, every stage agrees with the
one before it.
-/

/-- A selection with the batch its payload encodes. -/
structure EncodedSelection where
  selection : PerTagSelection
  messages : List BAMMessage
  signatures : List Bytes
  encoded : EncodedBatch
  isEncoded : encodeBatch messages signatures .none = .ok encoded
  isPayload : selection.payloadBytes = encoded.data

/-- The ranges of a plan follow one another. -/
theorem packLoop_ordered
    (capacity : PackCapacity)
    (cursorFE usedBytes : Nat)
    (selections : List PerTagSelection) :
    (∀ segment ∈ (packLoop capacity cursorFE usedBytes
          selections).included,
        cursorFE ≤ segment.startFE) ∧
      (packLoop capacity cursorFE usedBytes selections).included.Pairwise
        fun earlier later => earlier.endFE ≤ later.startFE := by
  induction selections generalizing cursorFE usedBytes with
  | nil =>
      simp [packLoop]
  | cons selection rest inductionHypothesis =>
      simp only [packLoop]
      split
      · exact inductionHypothesis cursorFE usedBytes
      · obtain ⟨later, ordered⟩ := inductionHypothesis
          (cursorFE + feCountForPayload selection.payloadBytes.length)
          (usedBytes + selection.payloadBytes.length)
        refine ⟨List.forall_mem_cons.mpr ⟨Nat.le_refl _, ?_⟩,
          List.pairwise_cons.mpr ⟨later, ordered⟩⟩
        intro segment member
        exact Nat.le_trans (Nat.le_add_right _ _) (later segment member)

/-- Every field element a layout writes starts with a zero byte. -/
theorem layoutSegments_head
    {cursorFE : Nat}
    {inputs : List MultiSegmentInput}
    {written : List Bytes}
    {placed : List AssembledSegment}
    (laid : layoutSegments cursorFE inputs = .ok (written, placed)) :
    ∀ fe ∈ written, fe.head? = some 0x00 := by
  induction inputs generalizing cursorFE written placed with
  | nil =>
      cases laid
      simp
  | cons input rest inductionHypothesis =>
      rw [layoutSegments] at laid
      split at laid
      · cases laid
      split at laid
      · cases laid
      rename_i restWritten restPlaced laidRest
      rw [Except.ok.injEq, Prod.mk.injEq] at laid
      obtain ⟨rfl, -⟩ := laid
      intro fe member
      rcases List.mem_append.mp member with inFirst | inRest
      · obtain ⟨index, -, rfl⟩ := List.mem_map.mp inFirst
        rfl
      · exact inductionHypothesis laidRest fe inRest

/-- Byte 0 of every field element of an assembled blob is zero. -/
theorem assembled_highBytes
    {inputs : List MultiSegmentInput}
    {assembled : AssembledMultiSegmentBlob}
    (assembles : assembleMultiSegmentBlob inputs = .ok assembled)
    {fe : Nat}
    (inside : fe < FIELD_ELEMENTS_PER_BLOB) :
    assembled.blob[fe * BYTES_PER_FIELD_ELEMENT]? = some 0x00 := by
  obtain ⟨written, laid, isBlob⟩ :=
    assembleMultiSegmentBlob_ok assembles
  obtain ⟨wide, fits⟩ := layoutSegments_written laid
  have writtenFits := fits (Nat.zero_le _)
  let all :=
    written ++
      List.replicate (FIELD_ELEMENTS_PER_BLOB - written.length)
        zeroFieldElement
  have allWide : ∀ part ∈ all, part.length = BYTES_PER_FIELD_ELEMENT := by
    intro part member
    rcases List.mem_append.mp member with inWritten | isZero
    · exact wide part inWritten
    · rw [List.eq_of_mem_replicate isZero]
      rfl
  have allHead : ∀ part ∈ all, part.head? = some 0x00 := by
    intro part member
    rcases List.mem_append.mp member with inWritten | isZero
    · exact layoutSegments_head laid part inWritten
    · rw [List.eq_of_mem_replicate isZero]
      rfl
  have position : fe < all.length := by
    simp only [all, List.length_append, List.length_replicate]
    omega
  have slice := Bytewise.take_drop_flatten allWide position 0
  rw [Nat.sub_zero, Nat.add_zero, List.drop_zero] at slice
  have head := allHead all[fe] (List.getElem_mem position)
  rw [← slice, List.head?_take, if_neg (by decide),
    List.head?_drop] at head
  rw [isBlob]
  exact head

/-- Planning, assembling, slicing and decoding encoded selections. -/
theorem packedBlob_roundTrip
    (decompress : Bytes → Except BatchError Bytes)
    (selections : List EncodedSelection) :
    let plan :=
      planPack (selections.map EncodedSelection.selection)
        defaultPackCapacity
    validatePackPlanInvariants plan = .ok () ∧
      ∃ assembled,
        assembleMultiSegmentBlob
            (plan.included.map PackPlanIncluded.toInput) =
          .ok assembled ∧
        assembled.segments =
          plan.included.map PackPlanIncluded.toAssembled ∧
        (∀ fe < FIELD_ELEMENTS_PER_BLOB,
          assembled.blob[fe * BYTES_PER_FIELD_ELEMENT]? = some 0x00) ∧
        (plan.included.Pairwise fun earlier later =>
          earlier.endFE ≤ later.startFE) ∧
        ∀ segment ∈ plan.included,
          ∃ chosen ∈ selections,
            chosen.selection.contentTag = segment.contentTag ∧
            chosen.selection.payloadBytes = segment.payloadBytes ∧
            ∃ sliced,
              extractSegmentBytes assembled.blob segment.startFE
                  segment.endFE = .ok sliced ∧
                decodeBatch decompress sliced =
                  .ok {
                    messages := chosen.messages
                    signatures := chosen.signatures } := by
  dsimp only
  have inBlob : defaultPackCapacity.maxFEs ≤ FIELD_ELEMENTS_PER_BLOB :=
    Nat.le_refl _
  obtain ⟨assembled, assembles, ranges⟩ :=
    assemble_planPack inBlob
      (selections.map EncodedSelection.selection)
  refine ⟨validateSegments_packLoop inBlob 0 0 _ 0 (Nat.le_refl 0),
    assembled, assembles, ranges,
    fun fe inside => assembled_highBytes assembles inside,
    (packLoop_ordered _ 0 0 _).2, ?_⟩
  intro segment included
  obtain ⟨⟨source, isSource, sameTag, samePayload⟩, -, -, -, inBytes⟩ :=
    packLoop_included included
  obtain ⟨chosen, isChosen, rfl⟩ :=
    List.mem_map.mp (mem_sortSelections.mp isSource)
  obtain ⟨sliced, extracted, head⟩ :=
    extract_planned inBlob assembles included
  have small :
      estimateBatchSize chosen.messages ≤ MAX_UINT32 := by
    rw [← length_encodeBatch chosen.isEncoded, ← chosen.isPayload,
      samePayload]
    have capacity : defaultPackCapacity.maxBytes ≤ MAX_UINT32 := by
      decide
    omega
  have decoded :=
    decodeBatch_encodeBatch decompress chosen.isEncoded small
      (sliced.drop segment.payloadBytes.length)
  have whole :
      chosen.encoded.data ++
          sliced.drop segment.payloadBytes.length =
        sliced := by
    rw [← chosen.isPayload, samePayload]
    nth_rewrite 1 [← head]
    exact List.take_append_drop _ _
  rw [whole] at decoded
  exact ⟨chosen, isChosen, sameTag, samePayload, sliced, extracted,
    decoded⟩

theorem eq_ok_of_toOption
    {Error Value : Type}
    {result : Except Error Value}
    (succeeds : result.toOption.isSome = true) :
    result = .ok (result.toOption.get succeeds) := by
  cases result with
  | error error => cases succeeds
  | ok value => rfl

/-- The selection of a batch that is encoded. -/
def EncodedSelection.ofBatch
    (contentTag : Bytes32)
    (oldestIngestedAt : Int)
    (messages : List BAMMessage)
    (signatures : List Bytes)
    (succeeds :
      (encodeBatch messages signatures .none).toOption.isSome = true) :
    EncodedSelection where
  encoded :=
    (encodeBatch messages signatures .none).toOption.get succeeds
  selection := {
    contentTag := contentTag
    payloadBytes :=
      ((encodeBatch messages signatures .none).toOption.get succeeds).data
    oldestIngestedAt := oldestIngestedAt
    pendingMessageCount := messages.length }
  messages := messages
  signatures := signatures
  isEncoded := eq_ok_of_toOption succeeds
  isPayload := rfl

/-- Contents as long as all usable bytes of a blob. -/
def longMessage : BAMMessage where
  sender := 8
  nonce := 0
  contents := List.replicate USABLE_BYTES_PER_BLOB 0x61

theorem encode_longMessage :
    (encodeBatch [longMessage] [List.replicate 65 0x11]
      .none).toOption.isSome = true := by
  have fits : longMessage.contents.length ≤ MAX_UINT32 := by
    rw [longMessage, List.length_replicate]
    decide
  obtain ⟨encoded, written⟩ :=
    @encodeBatch_succeeds [longMessage] [List.replicate 65 0x11] rfl
      (by decide) fun record member => by
        rw [List.zip_cons_cons, List.zip_nil_left,
          List.mem_singleton] at member
        subst member
        exact ⟨List.length_replicate, Nat.zero_le _, fits⟩
  rw [written]
  rfl

/-- Two messages under tag 5. -/
def shortSelection : EncodedSelection :=
  .ofBatch 5 0 sampleMessages sampleSignatures (by decide +kernel)

/-- A younger message under tag 6 that does not fit beside them. -/
def longSelection : EncodedSelection :=
  .ofBatch 6 1 [longMessage] [List.replicate 65 0x11] encode_longMessage

theorem EncodedSelection.length_payload
    (chosen : EncodedSelection) :
    chosen.selection.payloadBytes.length =
      estimateBatchSize chosen.messages := by
  rw [chosen.isPayload, length_encodeBatch chosen.isEncoded]

/-- The plan for the two tags includes the one and excludes the other. -/
theorem planPack_two_tags :
    planPack [longSelection.selection, shortSelection.selection]
        defaultPackCapacity = {
      included := [{
        contentTag := 5
        startFE := 0
        endFE := 7
        payloadBytes := shortSelection.selection.payloadBytes }]
      excluded := [{ contentTag := 6, pendingMessageCount := 1 }] } := by
  have isShort : shortSelection.selection.payloadBytes.length = 210 :=
    shortSelection.length_payload
  have isLong :
      longSelection.selection.payloadBytes.length = 127083 := by
    have contents : longMessage.contents.length = 126976 :=
      List.length_replicate
    have batch : longSelection.messages = [longMessage] := rfl
    rw [longSelection.length_payload, batch, estimateBatchSize,
      estimateBatchSize, contents, HEADER_SIZE, RECORD_FIXED_OVERHEAD,
      SIGNATURE_BYTES]
  have sorted :
      sortSelections
          [longSelection.selection, shortSelection.selection] =
        [shortSelection.selection, longSelection.selection] :=
    rfl
  rw [planPack, sorted, packLoop, isShort, if_neg (by decide),
    packLoop, isLong, if_pos (by decide)]
  rfl

/-- The two tags: the older one is packed and read back. -/
theorem packedBlob_roundTrip_two_tags :
    let plan :=
      planPack [longSelection.selection, shortSelection.selection]
        defaultPackCapacity
    (plan.included.map PackPlanIncluded.contentTag = [5] ∧
        plan.excluded.map PackPlanExcluded.contentTag = [6]) ∧
      validatePackPlanInvariants plan = .ok () ∧
      ∃ assembled,
        assembleMultiSegmentBlob
            (plan.included.map PackPlanIncluded.toInput) =
          .ok assembled ∧
        assembled.segments =
          plan.included.map PackPlanIncluded.toAssembled ∧
        (∀ fe < FIELD_ELEMENTS_PER_BLOB,
          assembled.blob[fe * BYTES_PER_FIELD_ELEMENT]? = some 0x00) ∧
        (plan.included.Pairwise fun earlier later =>
          earlier.endFE ≤ later.startFE) ∧
        ∀ segment ∈ plan.included,
          ∃ chosen ∈ [longSelection, shortSelection],
            chosen.selection.contentTag = segment.contentTag ∧
            chosen.selection.payloadBytes = segment.payloadBytes ∧
            ∃ sliced,
              extractSegmentBytes assembled.blob segment.startFE
                  segment.endFE = .ok sliced ∧
                decodeBatch (fun _ => .error .decompression) sliced =
                  .ok {
                    messages := chosen.messages
                    signatures := chosen.signatures } := by
  refine ⟨?_, packedBlob_roundTrip (fun _ => .error .decompression)
    [longSelection, shortSelection]⟩
  rw [planPack_two_tags]
  exact ⟨rfl, rfl⟩

end Bam
