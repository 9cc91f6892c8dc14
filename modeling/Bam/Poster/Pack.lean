import Mathlib.Data.List.Sort
import Bam.Sdk.Blob

namespace Bam

/-!
# Multi-tag pack planning

`planPack` lays per-tag payloads at field-element boundaries, oldest first,
and leaves out every payload that does not fit what is left of the capacity.
-/

structure PerTagSelection where
  contentTag : Bytes32
  payloadBytes : Bytes
  oldestIngestedAt : Int
  pendingMessageCount : Nat
  deriving Repr, DecidableEq

structure PackPlanIncluded where
  contentTag : Bytes32
  startFE : Nat
  endFE : Nat
  payloadBytes : Bytes
  deriving Repr, DecidableEq

structure PackPlanExcluded where
  contentTag : Bytes32
  pendingMessageCount : Nat
  deriving Repr, DecidableEq

structure PackPlan where
  included : List PackPlanIncluded
  excluded : List PackPlanExcluded
  deriving Repr, DecidableEq

structure PackCapacity where
  maxFEs : Nat
  maxBytes : Nat
  deriving Repr, DecidableEq

/-- What `validatePackPlanInvariants` throws. -/
inductive PackPlanError where
  | malformedSegment (contentTag : Bytes32) (startFE endFE : Nat)
  | overlap (contentTag : Bytes32) (startFE lastEnd : Nat)
  | payloadOverflow (contentTag : Bytes32) (payload capacity : Nat)
  deriving Repr, DecidableEq

def defaultPackCapacity : PackCapacity where
  maxFEs := FIELD_ELEMENTS_PER_BLOB
  maxBytes := USABLE_BYTES_PER_BLOB

/-- `compareSelections(a, b) <= 0`: older first, then the smaller tag. -/
def PerTagSelection.comesBefore
    (first second : PerTagSelection) : Prop :=
  first.oldestIngestedAt < second.oldestIngestedAt ∨
    first.oldestIngestedAt = second.oldestIngestedAt ∧
      first.contentTag.toNat ≤ second.contentTag.toNat

instance : DecidableRel PerTagSelection.comesBefore :=
  fun first second => by
    unfold PerTagSelection.comesBefore
    infer_instance

instance : Std.Total PerTagSelection.comesBefore where
  total first second := by
    unfold PerTagSelection.comesBefore
    omega

instance : IsTrans PerTagSelection PerTagSelection.comesBefore where
  trans first second third := by
    unfold PerTagSelection.comesBefore
    omega

/-- Selections that come before each other are for one tag. -/
theorem PerTagSelection.comesBefore_antisymm
    {first second : PerTagSelection}
    (forth : first.comesBefore second)
    (back : second.comesBefore first) :
    first.contentTag = second.contentTag := by
  unfold PerTagSelection.comesBefore at forth back
  apply BitVec.eq_of_toNat_eq
  omega

/-- `input.sort(compareSelections)`. -/
def sortSelections
    (selections : List PerTagSelection) : List PerTagSelection :=
  selections.insertionSort PerTagSelection.comesBefore

/-- The greedy loop of `planPack`: field elements and bytes used so far. -/
def packLoop
    (capacity : PackCapacity) :
    Nat → Nat → List PerTagSelection → PackPlan
  | _, _, [] => { included := [], excluded := [] }
  | cursorFE, usedBytes, selection :: rest =>
      let segmentFEs := feCountForPayload selection.payloadBytes.length
      let wouldEndFE := cursorFE + segmentFEs
      let wouldUseBytes := usedBytes + selection.payloadBytes.length
      if segmentFEs = 0 ∨ capacity.maxFEs < wouldEndFE ∨
          capacity.maxBytes < wouldUseBytes then
        let plan := packLoop capacity cursorFE usedBytes rest
        { plan with
          excluded :=
            { contentTag := selection.contentTag
              pendingMessageCount := selection.pendingMessageCount } ::
              plan.excluded }
      else
        let plan := packLoop capacity wouldEndFE wouldUseBytes rest
        { plan with
          included :=
            { contentTag := selection.contentTag
              startFE := cursorFE
              endFE := wouldEndFE
              payloadBytes := selection.payloadBytes } ::
              plan.included }

/-- `planPack`. -/
def planPack
    (input : List PerTagSelection)
    (capacity : PackCapacity) : PackPlan :=
  packLoop capacity 0 0 (sortSelections input)

/-- The segment loop of `validatePackPlanInvariants`. -/
def validateSegments :
    Nat → List PackPlanIncluded → Except PackPlanError Unit
  | _, [] => .ok ()
  | lastEnd, segment :: rest =>
      let capacityBytes :=
        (segment.endFE - segment.startFE) *
          USABLE_BYTES_PER_FIELD_ELEMENT
      if FIELD_ELEMENTS_PER_BLOB < segment.endFE ∨
          segment.endFE ≤ segment.startFE then
        .error (.malformedSegment segment.contentTag
          segment.startFE segment.endFE)
      else if segment.startFE < lastEnd then
        .error (.overlap segment.contentTag segment.startFE lastEnd)
      else if capacityBytes < segment.payloadBytes.length then
        .error (.payloadOverflow segment.contentTag
          segment.payloadBytes.length capacityBytes)
      else
        validateSegments segment.endFE rest

/-- `validatePackPlanInvariants`. -/
def validatePackPlanInvariants
    (plan : PackPlan) : Except PackPlanError Unit :=
  validateSegments 0 plan.included

/-- The assembly input of a planned segment. -/
def PackPlanIncluded.toInput
    (segment : PackPlanIncluded) : MultiSegmentInput where
  contentTag := segment.contentTag
  payload := segment.payloadBytes

/-- The range of a planned segment. -/
def PackPlanIncluded.toAssembled
    (segment : PackPlanIncluded) : AssembledSegment where
  contentTag := segment.contentTag
  startFE := segment.startFE
  endFE := segment.endFE

@[simp] theorem mem_sortSelections
    {selections : List PerTagSelection}
    {selection : PerTagSelection} :
    selection ∈ sortSelections selections ↔ selection ∈ selections :=
  List.mem_insertionSort _

/-- The head of the sorted selections comes before all of them. -/
theorem head_sortSelections
    {selections rest : List PerTagSelection}
    {first : PerTagSelection}
    (sorted : sortSelections selections = first :: rest) :
    first ∈ selections ∧
      ∀ selection ∈ selections, first.comesBefore selection := by
  have ordered : (sortSelections selections).Pairwise
      PerTagSelection.comesBefore :=
    List.pairwise_insertionSort _ selections
  rw [sorted, List.pairwise_cons] at ordered
  refine ⟨mem_sortSelections.mp (sorted ▸ List.mem_cons_self), ?_⟩
  intro selection member
  rw [← mem_sortSelections, sorted, List.mem_cons] at member
  rcases member with isFirst | later
  · subst isFirst
    exact .inr ⟨rfl, Nat.le_refl _⟩
  · exact ordered.1 selection later

/-- An included segment carries a selection's payload in a tight range inside
the capacity. -/
theorem packLoop_included
    {capacity : PackCapacity}
    {cursorFE usedBytes : Nat}
    {selections : List PerTagSelection}
    {segment : PackPlanIncluded}
    (included :
      segment ∈ (packLoop capacity cursorFE usedBytes selections).included) :
    (∃ selection ∈ selections,
        selection.contentTag = segment.contentTag ∧
        selection.payloadBytes = segment.payloadBytes) ∧
      0 < feCountForPayload segment.payloadBytes.length ∧
      segment.endFE =
        segment.startFE +
          feCountForPayload segment.payloadBytes.length ∧
      segment.endFE ≤ capacity.maxFEs ∧
      usedBytes + segment.payloadBytes.length ≤ capacity.maxBytes := by
  induction selections generalizing cursorFE usedBytes with
  | nil =>
      simp [packLoop] at included
  | cons selection rest inductionHypothesis =>
      simp only [packLoop] at included
      split at included
      · obtain ⟨⟨chosen, member, facts⟩, others⟩ :=
          inductionHypothesis included
        exact ⟨⟨chosen, List.mem_cons_of_mem _ member, facts⟩, others⟩
      · rename_i fits
        rcases List.mem_cons.mp included with isFirst | later
        · subst isFirst
          refine ⟨⟨selection, List.mem_cons_self, rfl, rfl⟩,
            ?_, rfl, ?_, ?_⟩ <;>
            simp only <;> omega
        · obtain ⟨⟨chosen, member, facts⟩, positive, tight, inFEs, inBytes⟩ :=
            inductionHypothesis later
          exact ⟨⟨chosen, List.mem_cons_of_mem _ member, facts⟩,
            positive, tight, inFEs, by omega⟩

/-- A selection that fits an empty blob is included when it comes first. -/
theorem packLoop_first
    {capacity : PackCapacity}
    {selection : PerTagSelection}
    (rest : List PerTagSelection)
    (nonempty : 0 < feCountForPayload selection.payloadBytes.length)
    (inFEs :
      feCountForPayload selection.payloadBytes.length ≤ capacity.maxFEs)
    (inBytes : selection.payloadBytes.length ≤ capacity.maxBytes) :
    ∃ segment ∈ (packLoop capacity 0 0 (selection :: rest)).included,
      segment.contentTag = selection.contentTag := by
  have fits :
      ¬ (feCountForPayload selection.payloadBytes.length = 0 ∨
        capacity.maxFEs <
          0 + feCountForPayload selection.payloadBytes.length ∨
        capacity.maxBytes < 0 + selection.payloadBytes.length) := by
    omega
  simp only [packLoop, if_neg fits]
  exact ⟨_, List.mem_cons_self, rfl⟩

/-- The ranges of a plan are the ranges assembly gives its payloads. -/
theorem layoutSegments_packLoop
    {capacity : PackCapacity}
    (inBlob : capacity.maxFEs ≤ FIELD_ELEMENTS_PER_BLOB)
    (cursorFE usedBytes : Nat)
    (selections : List PerTagSelection) :
    ∃ written,
      layoutSegments cursorFE
          ((packLoop capacity cursorFE usedBytes selections).included.map
            PackPlanIncluded.toInput) =
        .ok (written,
          (packLoop capacity cursorFE usedBytes selections).included.map
            PackPlanIncluded.toAssembled) := by
  induction selections generalizing cursorFE usedBytes with
  | nil =>
      exact ⟨[], rfl⟩
  | cons selection rest inductionHypothesis =>
      simp only [packLoop]
      split
      · exact inductionHypothesis cursorFE usedBytes
      · rename_i fits
        obtain ⟨written, laid⟩ := inductionHypothesis
          (cursorFE + feCountForPayload selection.payloadBytes.length)
          (usedBytes + selection.payloadBytes.length)
        have inside :
            ¬ FIELD_ELEMENTS_PER_BLOB <
              cursorFE +
                feCountForPayload selection.payloadBytes.length := by
          omega
        refine ⟨(List.range
            (feCountForPayload selection.payloadBytes.length)).map
              (payloadFieldElement selection.payloadBytes) ++ written, ?_⟩
        simp only [List.map_cons, layoutSegments,
          PackPlanIncluded.toInput, if_neg inside] at laid ⊢
        rw [laid]
        rfl

/-- Every plan passes its own invariant check. -/
theorem validateSegments_packLoop
    {capacity : PackCapacity}
    (inBlob : capacity.maxFEs ≤ FIELD_ELEMENTS_PER_BLOB)
    (cursorFE usedBytes : Nat)
    (selections : List PerTagSelection) :
    ∀ lastEnd ≤ cursorFE,
      validateSegments lastEnd
        (packLoop capacity cursorFE usedBytes selections).included =
          .ok () := by
  induction selections generalizing cursorFE usedBytes with
  | nil =>
      intro lastEnd _
      rfl
  | cons selection rest inductionHypothesis =>
      intro lastEnd behind
      simp only [packLoop]
      split
      · exact inductionHypothesis cursorFE usedBytes lastEnd behind
      · rename_i fits
        have roomy := le_feCountForPayload selection.payloadBytes.length
        have wellFormed :
            ¬ (FIELD_ELEMENTS_PER_BLOB <
                cursorFE +
                  feCountForPayload selection.payloadBytes.length ∨
              cursorFE +
                  feCountForPayload selection.payloadBytes.length ≤
                cursorFE) := by
          omega
        rw [validateSegments, if_neg wellFormed,
          if_neg (Nat.not_lt.mpr behind), if_neg ?_]
        · exact inductionHypothesis _ _ _ (Nat.le_refl _)
        · simpa using roomy

end Bam
