import Mathlib.Data.List.Forall2
import Mathlib.Data.List.GetD
import Bam.Lib.Bytewise
import Bam.Sdk.Types

namespace Bam

open Bytewise

/-!
# Multi-segment blobs

A blob is 4096 field elements of 32 bytes.  Byte 0 of every field element is
zero and the other 31 carry payload.  `assembleMultiSegmentBlob` lays payloads
one after the other on field-element boundaries and `extractSegmentBytes` reads
one range back, alignment padding included.
-/

def BYTES_PER_FIELD_ELEMENT : Nat := 32

def USABLE_BYTES_PER_FIELD_ELEMENT : Nat := 31

def FIELD_ELEMENTS_PER_BLOB : Nat := 4096

/-- `FIELD_ELEMENTS_PER_BLOB * USABLE_BYTES_PER_FIELD_ELEMENT`. -/
def USABLE_BYTES_PER_BLOB : Nat := 126976

/-- `Math.ceil(byteLength / USABLE_BYTES_PER_FIELD_ELEMENT)`. -/
def feCountForPayload (byteLength : Nat) : Nat :=
  (byteLength + 30) / 31

structure MultiSegmentInput where
  contentTag : Bytes32
  payload : Bytes
  deriving Repr, DecidableEq

structure AssembledSegment where
  contentTag : Bytes32
  startFE : Nat
  endFE : Nat
  deriving Repr, DecidableEq

structure AssembledMultiSegmentBlob where
  blob : Bytes
  segments : List AssembledSegment
  deriving Repr, DecidableEq

/-- What assembly and extraction throw. -/
inductive BlobError where
  | aggregateEndFE (endFE : Nat)
  | endPastBlob (endFE : Nat)
  | emptyRange (startFE endFE : Nat)
  | blobTooShort (endFE need got : Nat)
  deriving Repr, DecidableEq

/-- The field element that carries the `index`-th block of a payload. -/
def payloadFieldElement
    (payload : Bytes)
    (index : Nat) : Bytes :=
  0x00 :: padRight 0x00 USABLE_BYTES_PER_FIELD_ELEMENT
    (block USABLE_BYTES_PER_FIELD_ELEMENT payload index)

/-- A field element nothing was written to. -/
def zeroFieldElement : Bytes :=
  List.replicate BYTES_PER_FIELD_ELEMENT 0x00

/-- The segment loop of `assembleMultiSegmentBlob` from a cursor on: the field
elements written and the ranges recorded. -/
def layoutSegments :
    Nat → List MultiSegmentInput →
      Except BlobError (List Bytes × List AssembledSegment)
  | _, [] => .ok ([], [])
  | cursorFE, segment :: rest =>
      let segmentFEs := feCountForPayload segment.payload.length
      let endFE := cursorFE + segmentFEs
      if FIELD_ELEMENTS_PER_BLOB < endFE then
        .error (.aggregateEndFE endFE)
      else
        match layoutSegments endFE rest with
        | .error error => .error error
        | .ok (written, segments) =>
            .ok
              ((List.range segmentFEs).map
                  (payloadFieldElement segment.payload) ++ written,
                { contentTag := segment.contentTag
                  startFE := cursorFE
                  endFE := endFE } :: segments)

/-- `assembleMultiSegmentBlob`. -/
def assembleMultiSegmentBlob
    (segments : List MultiSegmentInput) :
    Except BlobError AssembledMultiSegmentBlob :=
  match layoutSegments 0 segments with
  | .error error => .error error
  | .ok (written, placed) =>
      .ok {
        blob :=
          (written ++
            List.replicate (FIELD_ELEMENTS_PER_BLOB - written.length)
              zeroFieldElement).flatten
        segments := placed }

/-- `extractSegmentBytes`. -/
def extractSegmentBytes
    (blob : Bytes)
    (startFE endFE : Nat) : Except BlobError Bytes :=
  if FIELD_ELEMENTS_PER_BLOB < endFE then
    .error (.endPastBlob endFE)
  else if endFE ≤ startFE then
    .error (.emptyRange startFE endFE)
  else if blob.length < endFE * BYTES_PER_FIELD_ELEMENT then
    .error (.blobTooShort endFE
      (endFE * BYTES_PER_FIELD_ELEMENT) blob.length)
  else
    .ok ((List.range' startFE (endFE - startFE)).flatMap fun fe =>
      (blob.drop (fe * BYTES_PER_FIELD_ELEMENT + 1)).take
        USABLE_BYTES_PER_FIELD_ELEMENT)

@[simp] theorem length_payloadFieldElement
    (payload : Bytes)
    (index : Nat) :
    (payloadFieldElement payload index).length =
      BYTES_PER_FIELD_ELEMENT := by
  have short :=
    length_block_le USABLE_BYTES_PER_FIELD_ELEMENT payload index
  simp only [payloadFieldElement, List.length_cons, length_padRight,
    BYTES_PER_FIELD_ELEMENT, USABLE_BYTES_PER_FIELD_ELEMENT] at short ⊢
  omega

/-- A payload fits the field elements counted for it. -/
theorem le_feCountForPayload
    (byteLength : Nat) :
    byteLength ≤
      feCountForPayload byteLength * USABLE_BYTES_PER_FIELD_ELEMENT := by
  simp only [feCountForPayload, USABLE_BYTES_PER_FIELD_ELEMENT]
  omega

theorem feCountForPayload_pos
    {byteLength : Nat} :
    0 < feCountForPayload byteLength ↔ 0 < byteLength := by
  simp only [feCountForPayload]
  omega

/-- Where a segment ended up among the field elements written from a cursor. -/
structure PlacedFrom
    (cursorFE : Nat)
    (written : List Bytes)
    (input : MultiSegmentInput)
    (placed : AssembledSegment) : Prop where
  sameTag : placed.contentTag = input.contentTag
  fromCursor : cursorFE ≤ placed.startFE
  tightRange :
    placed.endFE =
      placed.startFE + feCountForPayload input.payload.length
  insideBlob : placed.endFE ≤ FIELD_ELEMENTS_PER_BLOB
  content :
    (written.drop (placed.startFE - cursorFE)).take
        (feCountForPayload input.payload.length) =
      (List.range (feCountForPayload input.payload.length)).map
        (payloadFieldElement input.payload)

/-- Segments laid behind an earlier one are where they were. -/
theorem PlacedFrom.after
    {cursorFE : Nat}
    {leading written : List Bytes}
    {input : MultiSegmentInput}
    {placed : AssembledSegment}
    (isPlaced :
      PlacedFrom (cursorFE + leading.length) written input placed) :
    PlacedFrom cursorFE (leading ++ written) input placed where
  sameTag := isPlaced.sameTag
  fromCursor := Nat.le_trans (Nat.le_add_right _ _) isPlaced.fromCursor
  tightRange := isPlaced.tightRange
  insideBlob := isPlaced.insideBlob
  content := by
    have past :
        placed.startFE - cursorFE =
          leading.length +
            (placed.startFE - (cursorFE + leading.length)) := by
      have reached := isPlaced.fromCursor
      omega
    rw [past, List.drop_length_add_append, isPlaced.content]

/-- Every segment of a successful layout is placed. -/
theorem layoutSegments_placed
    {cursorFE : Nat}
    {inputs : List MultiSegmentInput}
    {written : List Bytes}
    {placed : List AssembledSegment}
    (laid : layoutSegments cursorFE inputs = .ok (written, placed)) :
    List.Forall₂ (PlacedFrom cursorFE written) inputs placed := by
  induction inputs generalizing cursorFE written placed with
  | nil =>
      cases laid
      exact .nil
  | cons input rest inductionHypothesis =>
      rw [layoutSegments] at laid
      split at laid
      · cases laid
      rename_i inside
      split at laid
      · cases laid
      rename_i restWritten restPlaced laidRest
      rw [Except.ok.injEq, Prod.mk.injEq] at laid
      obtain ⟨isWritten, isPlaced⟩ := laid
      have later := inductionHypothesis laidRest
      subst isPlaced
      refine .cons ?_ ?_
      · refine ⟨rfl, Nat.le_refl _, rfl, Nat.le_of_not_lt inside, ?_⟩
        rw [← isWritten, Nat.sub_self, List.drop_zero]
        exact List.take_left' (by simp)
      · rw [← isWritten]
        refine later.imp ?_
        intro laterInput laterPlaced isLater
        apply PlacedFrom.after
        simpa using isLater

/-- All field elements of a layout are 32 bytes wide and fit the blob. -/
theorem layoutSegments_written
    {cursorFE : Nat}
    {inputs : List MultiSegmentInput}
    {written : List Bytes}
    {placed : List AssembledSegment}
    (laid : layoutSegments cursorFE inputs = .ok (written, placed)) :
    (∀ fe ∈ written, fe.length = BYTES_PER_FIELD_ELEMENT) ∧
      (cursorFE ≤ FIELD_ELEMENTS_PER_BLOB →
        cursorFE + written.length ≤ FIELD_ELEMENTS_PER_BLOB) := by
  induction inputs generalizing cursorFE written placed with
  | nil =>
      cases laid
      simp
  | cons input rest inductionHypothesis =>
      rw [layoutSegments] at laid
      split at laid
      · cases laid
      rename_i inside
      split at laid
      · cases laid
      rename_i restWritten restPlaced laidRest
      rw [Except.ok.injEq, Prod.mk.injEq] at laid
      obtain ⟨isWritten, -⟩ := laid
      obtain ⟨restWide, restFits⟩ := inductionHypothesis laidRest
      have fits := restFits (Nat.le_of_not_lt inside)
      rw [← isWritten]
      refine ⟨?_, ?_⟩
      · intro fe member
        rcases List.mem_append.mp member with inFirst | inRest
        · obtain ⟨index, -, rfl⟩ := List.mem_map.mp inFirst
          exact length_payloadFieldElement _ _
        · exact restWide fe inRest
      · intro _
        rw [List.length_append, List.length_map, List.length_range]
        omega

/-- What a successful assembly built. -/
theorem assembleMultiSegmentBlob_ok
    {inputs : List MultiSegmentInput}
    {assembled : AssembledMultiSegmentBlob}
    (succeeded : assembleMultiSegmentBlob inputs = .ok assembled) :
    ∃ written,
      layoutSegments 0 inputs = .ok (written, assembled.segments) ∧
      assembled.blob =
        (written ++
          List.replicate (FIELD_ELEMENTS_PER_BLOB - written.length)
            zeroFieldElement).flatten := by
  unfold assembleMultiSegmentBlob at succeeded
  split at succeeded
  · cases succeeded
  · rename_i written placed laid
    have isAssembled := Except.ok.inj succeeded
    subst isAssembled
    exact ⟨written, laid, rfl⟩

/-- The payload bytes of its field elements are the padded payload. -/
theorem flatMap_tail_payloadFieldElement
    (payload : Bytes) :
    (List.range (feCountForPayload payload.length)).flatMap
        (fun index => (payloadFieldElement payload index).drop 1) =
      padRight 0x00
        (feCountForPayload payload.length *
          USABLE_BYTES_PER_FIELD_ELEMENT) payload := by
  have blocks := flatMap_padded_blocks (0x00 : UInt8)
    USABLE_BYTES_PER_FIELD_ELEMENT payload
    (feCountForPayload payload.length)
  rw [List.take_of_length_le (le_feCountForPayload _)] at blocks
  exact blocks

/-- The field elements of a blob fill it. -/
theorem length_flatten_elements
    {elements : List Bytes}
    (wide : ∀ fe ∈ elements, fe.length = BYTES_PER_FIELD_ELEMENT)
    (whole : elements.length = FIELD_ELEMENTS_PER_BLOB) :
    elements.flatten.length =
      FIELD_ELEMENTS_PER_BLOB * BYTES_PER_FIELD_ELEMENT := by
  have widths :
      elements.map List.length =
        List.replicate FIELD_ELEMENTS_PER_BLOB
          BYTES_PER_FIELD_ELEMENT := by
    rw [List.eq_replicate_iff, List.length_map]
    refine ⟨whole, ?_⟩
    intro width member
    obtain ⟨fe, isElement, rfl⟩ := List.mem_map.mp member
    exact wide fe isElement
  rw [List.length_flatten, widths, List.sum_replicate_nat]

/-- Extraction drops the first byte of every field element of the range. -/
theorem extractSegmentBytes_flatten
    {elements : List Bytes}
    (wide : ∀ fe ∈ elements, fe.length = BYTES_PER_FIELD_ELEMENT)
    (whole : elements.length = FIELD_ELEMENTS_PER_BLOB)
    {startFE endFE : Nat}
    (ordered : startFE < endFE)
    (inside : endFE ≤ FIELD_ELEMENTS_PER_BLOB) :
    extractSegmentBytes elements.flatten startFE endFE =
      .ok (((elements.drop startFE).take (endFE - startFE)).flatMap
        fun fe => fe.drop 1) := by
  have longEnough :
      ¬elements.flatten.length < endFE * BYTES_PER_FIELD_ELEMENT := by
    rw [length_flatten_elements wide whole]
    exact Nat.not_lt.mpr (Nat.mul_le_mul_right _ inside)
  have isRange :
      (elements.drop startFE).take (endFE - startFE) =
        (List.range' startFE (endFE - startFE)).map fun fe =>
          elements.getD fe [] := by
    apply List.ext_getElem
    · rw [List.length_take, List.length_drop, List.length_map,
        List.length_range']
      omega
    · intro index small _
      rw [List.length_take, List.length_drop] at small
      rw [List.getElem_take, List.getElem_drop, List.getElem_map,
        List.getElem_range', Nat.one_mul, List.getD_eq_getElem]
  rw [extractSegmentBytes, if_neg (Nat.not_lt.mpr inside),
    if_neg (Nat.not_le.mpr ordered), if_neg longEnough, isRange,
    List.flatMap_map]
  congr 1
  apply List.flatMap_congr
  intro fe member
  rw [List.mem_range'_1] at member
  have position : fe < elements.length := by
    omega
  rw [List.getD_eq_getElem _ _ position]
  exact take_drop_flatten wide position 1

/-- Extraction reads back what assembly placed, padded to the range. -/
theorem extractSegmentBytes_placed
    {written : List Bytes}
    {blob : Bytes}
    {input : MultiSegmentInput}
    {placed : AssembledSegment}
    (wide : ∀ fe ∈ written, fe.length = BYTES_PER_FIELD_ELEMENT)
    (fits : written.length ≤ FIELD_ELEMENTS_PER_BLOB)
    (isBlob :
      blob =
        (written ++
          List.replicate (FIELD_ELEMENTS_PER_BLOB - written.length)
            zeroFieldElement).flatten)
    (isPlaced : PlacedFrom 0 written input placed)
    (nonempty : 0 < input.payload.length) :
    extractSegmentBytes blob placed.startFE placed.endFE =
      .ok (padRight 0x00
        (feCountForPayload input.payload.length *
          USABLE_BYTES_PER_FIELD_ELEMENT) input.payload) := by
  have positive := feCountForPayload_pos.mpr nonempty
  have range := isPlaced.tightRange
  have inside := isPlaced.insideBlob
  have content := isPlaced.content
  rw [Nat.sub_zero] at content
  have reach :
      placed.startFE + feCountForPayload input.payload.length ≤
        written.length := by
    have lengths := congrArg List.length content
    rw [List.length_take, List.length_drop, List.length_map,
      List.length_range] at lengths
    omega
  let all :=
    written ++
      List.replicate (FIELD_ELEMENTS_PER_BLOB - written.length)
        zeroFieldElement
  have allWide : ∀ fe ∈ all, fe.length = BYTES_PER_FIELD_ELEMENT := by
    intro fe member
    rcases List.mem_append.mp member with inWritten | isZero
    · exact wide fe inWritten
    · rw [List.eq_of_mem_replicate isZero]
      rfl
  have allLength : all.length = FIELD_ELEMENTS_PER_BLOB := by
    simp only [all, List.length_append, List.length_replicate]
    omega
  have count :
      placed.endFE - placed.startFE =
        feCountForPayload input.payload.length := by
    omega
  have elements :
      (all.drop placed.startFE).take
          (feCountForPayload input.payload.length) =
        (List.range (feCountForPayload input.payload.length)).map
          (payloadFieldElement input.payload) := by
    rw [← content, List.drop_append_of_le_length (by omega),
      List.take_append_of_le_length]
    rw [List.length_drop]
    omega
  rw [isBlob, extractSegmentBytes_flatten allWide allLength (by omega)
    inside, count, elements, List.flatMap_map,
    ← flatMap_tail_payloadFieldElement]

/-- The field elements of a blob that begins with a payload and is zero behind
it. -/
def payloadElements (payload : Bytes) : List Bytes :=
  (List.range (feCountForPayload payload.length)).map
      (payloadFieldElement payload) ++
    List.replicate
      (FIELD_ELEMENTS_PER_BLOB - feCountForPayload payload.length)
      zeroFieldElement

def payloadBlob (payload : Bytes) : Bytes :=
  (payloadElements payload).flatten

theorem payloadElements_wide
    (payload : Bytes) :
    ∀ fe ∈ payloadElements payload,
      fe.length = BYTES_PER_FIELD_ELEMENT := by
  intro fe member
  rcases List.mem_append.mp member with isPayload | isZero
  · obtain ⟨index, -, rfl⟩ := List.mem_map.mp isPayload
    exact length_payloadFieldElement _ _
  · rw [List.eq_of_mem_replicate isZero]
    rfl

theorem length_payloadElements
    {payload : Bytes}
    (fits :
      feCountForPayload payload.length ≤ FIELD_ELEMENTS_PER_BLOB) :
    (payloadElements payload).length = FIELD_ELEMENTS_PER_BLOB := by
  rw [payloadElements, List.length_append, List.length_map,
    List.length_range, List.length_replicate, Nat.add_sub_cancel' fits]

theorem length_payloadBlob
    {payload : Bytes}
    (fits :
      feCountForPayload payload.length ≤ FIELD_ELEMENTS_PER_BLOB) :
    (payloadBlob payload).length =
      FIELD_ELEMENTS_PER_BLOB * BYTES_PER_FIELD_ELEMENT :=
  length_flatten_elements (payloadElements_wide payload)
    (length_payloadElements fits)

/-- Every range from the start of the blob that holds the payload is the
payload and padding. -/
theorem extractSegmentBytes_payloadBlob
    {payload : Bytes}
    {endFE : Nat}
    (positive : 0 < endFE)
    (holds : feCountForPayload payload.length ≤ endFE)
    (inside : endFE ≤ FIELD_ELEMENTS_PER_BLOB) :
    ∃ padding,
      extractSegmentBytes (payloadBlob payload) 0 endFE =
        .ok (payload ++ padding) := by
  have split :
      (payloadElements payload).take endFE =
        (List.range (feCountForPayload payload.length)).map
            (payloadFieldElement payload) ++
          (List.replicate
            (FIELD_ELEMENTS_PER_BLOB - feCountForPayload payload.length)
            zeroFieldElement).take
              (endFE - feCountForPayload payload.length) := by
    rw [payloadElements, List.take_append, List.length_map,
      List.length_range, List.take_of_length_le]
    rw [List.length_map, List.length_range]
    exact holds
  rw [payloadBlob, extractSegmentBytes_flatten
    (payloadElements_wide payload)
    (length_payloadElements (holds.trans inside)) positive inside,
    List.drop_zero, Nat.sub_zero, split, List.flatMap_append,
    List.flatMap_map, flatMap_tail_payloadFieldElement, padRight,
    List.append_assoc]
  exact ⟨_, rfl⟩

end Bam
