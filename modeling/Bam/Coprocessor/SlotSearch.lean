import Mathlib.Data.List.Basic
import Mathlib.Data.Nat.Basic
import Mathlib.Order.Basic

namespace Bam
namespace Coprocessor

/-!
# The beacon slot of an execution block

`find_slot_for_exec_block` widens a window around an estimate until its outer
blocks bracket the target, and then halves the bracket.  Every probe looks at
`PROBE_BLOCK_DEPTH` slots and takes a longer run of missed slots for the end of
the chain.  Slots are far below `2 ^ 62`, so no number wraps around.
-/

def PROBE_BLOCK_DEPTH : Nat := 64

def BRACKET_WINDOWS : List Nat :=
  [200, 1000, 5000, 20000, 100000]

/-- The loop of `probe_forward`. -/
def probeUp
    (getExecBlockAtSlot : Nat → Option Nat) :
    Nat → Nat → Option (Nat × Nat)
  | 0, _ => none
  | left + 1, slot =>
      match getExecBlockAtSlot slot with
      | some blockNumber => some (slot, blockNumber)
      | none => probeUp getExecBlockAtSlot left (slot + 1)

/-- `probe_forward`. -/
def probeForward
    (getExecBlockAtSlot : Nat → Option Nat)
    (start upperInclusive : Nat) : Option (Nat × Nat) :=
  probeUp getExecBlockAtSlot
    (min (start + PROBE_BLOCK_DEPTH) (upperInclusive + 1) - start) start

/-- The loop of `probe_backward`. -/
def probeDown
    (getExecBlockAtSlot : Nat → Option Nat)
    (lowerInclusive : Nat) :
    Nat → Nat → Option (Nat × Nat)
  | 0, _ => none
  | left + 1, slot =>
      if slot < lowerInclusive then none
      else
        match getExecBlockAtSlot slot with
        | some blockNumber => some (slot, blockNumber)
        | none =>
            if slot = 0 then none
            else
              probeDown getExecBlockAtSlot lowerInclusive left (slot - 1)

/-- `probe_backward`. -/
def probeBackward
    (getExecBlockAtSlot : Nat → Option Nat)
    (start lowerInclusive : Nat) : Option (Nat × Nat) :=
  probeDown getExecBlockAtSlot lowerInclusive PROBE_BLOCK_DEPTH start

/-- The errors of `find_slot_for_exec_block`. -/
inductive SlotSearchError where
  | couldNotBracket (execBlock approx : Nat)
  | didNotConverge (execBlock : Nat)
  deriving Repr, DecidableEq

/-- The bracket of one window. -/
def bracketIn
    (getExecBlockAtSlot : Nat → Option Nat)
    (execBlock approx window : Nat) : Option (Nat × Nat) :=
  match probeForward getExecBlockAtSlot (approx - window)
      (approx + window) with
  | none => none
  | some (slotLo, blockLo) =>
      match probeBackward getExecBlockAtSlot (approx + window)
          (approx - window) with
      | none => none
      | some (slotHi, blockHi) =>
          if blockLo ≤ execBlock ∧ execBlock ≤ blockHi then
            some (slotLo, slotHi)
          else none

/-- The `while` loop of the binary search, with so many turns; `none` where
they do not suffice. -/
def halve
    (getExecBlockAtSlot : Nat → Option Nat)
    (execBlock : Nat) :
    Nat → Int → Int → Option (Except SlotSearchError Nat)
  | turns, lo, hi =>
      if lo ≤ hi then
        match turns with
        | 0 => none
        | turns + 1 =>
            let mid := (lo + hi) / 2
            match probeForward getExecBlockAtSlot mid.toNat hi.toNat with
            | none => halve getExecBlockAtSlot execBlock turns lo (mid - 1)
            | some (slot, blockNumber) =>
                if blockNumber = execBlock then some (.ok slot)
                else if blockNumber < execBlock then
                  halve getExecBlockAtSlot execBlock turns (slot + 1) hi
                else
                  halve getExecBlockAtSlot execBlock turns lo (mid - 1)
      else some (.error (.didNotConverge execBlock))

/-- `find_slot_for_exec_block` over an estimate of the slot. -/
def findSlotForExecBlock
    (turns : Nat)
    (getExecBlockAtSlot : Nat → Option Nat)
    (execBlock approx : Nat) : Option (Except SlotSearchError Nat) :=
  match BRACKET_WINDOWS.findSome?
      (bracketIn getExecBlockAtSlot execBlock approx) with
  | none => some (.error (.couldNotBracket execBlock approx))
  | some (lo, hi) => halve getExecBlockAtSlot execBlock turns lo hi

section Probes

variable {getExecBlockAtSlot : Nat → Option Nat}

/-- The slot a search upwards stops at. -/
theorem probeUp_eq_some_iff
    {left slot found blockNumber : Nat} :
    probeUp getExecBlockAtSlot left slot = some (found, blockNumber) ↔
      slot ≤ found ∧ found < slot + left ∧
        getExecBlockAtSlot found = some blockNumber ∧
        ∀ other, slot ≤ other → other < found →
          getExecBlockAtSlot other = none := by
  induction left generalizing slot with
  | zero =>
      simp only [probeUp]
      constructor
      · intro impossible
        cases impossible
      · rintro ⟨atLeast, below, _⟩
        omega
  | succ left ih =>
      rw [probeUp]
      cases here : getExecBlockAtSlot slot with
      | some first =>
          dsimp only
          constructor
          · intro same
            cases same
            exact ⟨Nat.le_refl _, by omega, here, fun other _ _ => by omega⟩
          · rintro ⟨atLeast, _, isFound, missed⟩
            rcases Nat.eq_or_lt_of_le atLeast with same | later
            · subst same
              rw [here] at isFound
              cases isFound
              rfl
            · rw [missed slot (Nat.le_refl _) later] at here
              cases here
      | none =>
          dsimp only
          rw [ih]
          constructor
          · rintro ⟨atLeast, below, isFound, missed⟩
            refine ⟨by omega, by omega, isFound, ?_⟩
            intro other lower upper
            rcases Nat.eq_or_lt_of_le lower with same | later
            · rw [← same]
              exact here
            · exact missed other later upper
          · rintro ⟨atLeast, below, isFound, missed⟩
            have differs : slot ≠ found := by
              intro same
              rw [← same, here] at isFound
              cases isFound
            exact ⟨by omega, by omega, isFound,
              fun other lower upper => missed other (by omega) upper⟩

/-- A search upwards that finds nothing has seen missed slots only. -/
theorem probeUp_eq_none_iff
    {left slot : Nat} :
    probeUp getExecBlockAtSlot left slot = none ↔
      ∀ other, slot ≤ other → other < slot + left →
        getExecBlockAtSlot other = none := by
  induction left generalizing slot with
  | zero =>
      simp only [probeUp, true_iff]
      intro other lower upper
      omega
  | succ left ih =>
      rw [probeUp]
      cases here : getExecBlockAtSlot slot with
      | some first =>
          dsimp only
          constructor
          · intro impossible
            cases impossible
          · intro missed
            rw [missed slot (Nat.le_refl _) (by omega)] at here
            cases here
      | none =>
          dsimp only
          rw [ih]
          constructor
          · intro missed other lower upper
            rcases Nat.eq_or_lt_of_le lower with same | later
            · rw [← same]
              exact here
            · exact missed other later (by omega)
          · intro missed other lower upper
            exact missed other (by omega) (by omega)

/-- The slot a search downwards stops at. -/
theorem probeDown_eq_some_iff
    {lowerInclusive left slot found blockNumber : Nat} :
    probeDown getExecBlockAtSlot lowerInclusive left slot =
        some (found, blockNumber) ↔
      lowerInclusive ≤ found ∧ found ≤ slot ∧ slot < found + left ∧
        getExecBlockAtSlot found = some blockNumber ∧
        ∀ other, found < other → other ≤ slot →
          getExecBlockAtSlot other = none := by
  induction left generalizing slot with
  | zero =>
      simp only [probeDown]
      constructor
      · intro impossible
        cases impossible
      · rintro ⟨_, atMost, below, _⟩
        omega
  | succ left ih =>
      rw [probeDown]
      by_cases outside : slot < lowerInclusive
      · rw [if_pos outside]
        constructor
        · intro impossible
          cases impossible
        · rintro ⟨atLeast, atMost, _⟩
          omega
      rw [if_neg outside]
      cases here : getExecBlockAtSlot slot with
      | some first =>
          dsimp only
          constructor
          · intro same
            cases same
            exact ⟨by omega, Nat.le_refl _, by omega, here,
              fun other _ _ => by omega⟩
          · rintro ⟨_, atMost, _, isFound, missed⟩
            rcases Nat.eq_or_lt_of_le atMost with same | earlier
            · subst same
              rw [here] at isFound
              cases isFound
              rfl
            · rw [missed slot earlier (Nat.le_refl _)] at here
              cases here
      | none =>
          dsimp only
          have differs (isFound :
              getExecBlockAtSlot found = some blockNumber) :
              found ≠ slot := by
            intro same
            rw [same, here] at isFound
            cases isFound
          by_cases isZero : slot = 0
          · rw [if_pos isZero]
            constructor
            · intro impossible
              cases impossible
            · rintro ⟨_, atMost, _, isFound, _⟩
              exact absurd (by omega) (differs isFound)
          rw [if_neg isZero, ih]
          constructor
          · rintro ⟨atLeast, atMost, below, isFound, missed⟩
            refine ⟨atLeast, by omega, by omega, isFound, ?_⟩
            intro other lower upper
            rcases Nat.eq_or_lt_of_le upper with same | earlier
            · rw [same]
              exact here
            · exact missed other lower (by omega)
          · rintro ⟨atLeast, atMost, below, isFound, missed⟩
            have apart := differs isFound
            exact ⟨atLeast, by omega, by omega, isFound,
              fun other lower upper => missed other lower (by omega)⟩

/-- `probe_forward` stops at the first block of the slots it looks at. -/
theorem probeForward_eq_some_iff
    {start upperInclusive found blockNumber : Nat} :
    probeForward getExecBlockAtSlot start upperInclusive =
        some (found, blockNumber) ↔
      start ≤ found ∧ found < start + PROBE_BLOCK_DEPTH ∧
        found ≤ upperInclusive ∧
        getExecBlockAtSlot found = some blockNumber ∧
        ∀ other, start ≤ other → other < found →
          getExecBlockAtSlot other = none := by
  rw [probeForward, probeUp_eq_some_iff]
  constructor
  · rintro ⟨atLeast, below, rest⟩
    exact ⟨atLeast, by omega, by omega, rest⟩
  · rintro ⟨atLeast, below, atMost, rest⟩
    exact ⟨atLeast, by omega, rest⟩

theorem probeForward_eq_none_iff
    {start upperInclusive : Nat} :
    probeForward getExecBlockAtSlot start upperInclusive = none ↔
      ∀ other, start ≤ other → other < start + PROBE_BLOCK_DEPTH →
        other ≤ upperInclusive →
        getExecBlockAtSlot other = none := by
  rw [probeForward, probeUp_eq_none_iff]
  constructor
  · intro missed other lower below upper
    exact missed other lower (by omega)
  · intro missed other lower upper
    exact missed other lower (by omega) (by omega)

end Probes

end Coprocessor
end Bam
