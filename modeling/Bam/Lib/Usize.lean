import Mathlib.Data.List.Basic
import Mathlib.Tactic.Ring

namespace Usize

/-!
# Machine words that index slices

Addition of words wraps, or panics where overflow is checked.  A slice never
fills half of the address space, so a position inside a slice can be advanced by
a small amount; a sum that overflows never names a range of a slice.
-/

/-- The word size a program is compiled for, and what it does on overflow. -/
structure Target where
  usizeBits : Nat
  wide : 32 ≤ usizeBits
  overflowChecks : Bool

/-- How a computation fails: with an error of its own, or by a panic. -/
inductive Failure (Error : Type*) where
  | error (error : Error)
  | panic
  deriving Repr, DecidableEq

variable {Error : Type*} {α : Type*}

/-- The words of a target. -/
def Target.size (target : Target) : Nat :=
  2 ^ target.usizeBits

/-- The lengths a slice can have. -/
def Target.maxSlice (target : Target) : Nat :=
  2 ^ (target.usizeBits - 1)

/-- `first + second`. -/
def add
    (target : Target)
    (first second : Nat) : Except (Failure Error) Nat :=
  if first + second < target.size then .ok (first + second)
  else if target.overflowChecks then .error .panic
  else .ok ((first + second) % target.size)

/-- `&items[start..stop]`. -/
def slice
    (items : List α)
    (start stop : Nat) : Except (Failure Error) (List α) :=
  if start ≤ stop ∧ stop ≤ items.length then
    .ok ((items.drop start).take (stop - start))
  else .error .panic

theorem Target.size_eq
    (target : Target) :
    target.size = 2 * target.maxSlice := by
  have wide := target.wide
  have bits : target.usizeBits = target.usizeBits - 1 + 1 := by
    omega
  rw [size, maxSlice, bits, Nat.pow_succ, Nat.mul_comm]
  rfl

theorem Target.maxSlice_large
    (target : Target) :
    2 ^ 31 ≤ target.maxSlice := by
  have wide := target.wide
  exact Nat.pow_le_pow_right (by decide) (by omega)

/-- A sum of words below the word size is exact. -/
theorem add_of_lt
    {target : Target}
    {first second : Nat}
    (fits : first + second < target.size) :
    add target first second =
      (.ok (first + second) : Except (Failure Error) Nat) :=
  if_pos fits

/-- A position inside a slice advances by a small amount without overflow. -/
theorem add_small
    {target : Target}
    {position step : Nat}
    (inside : position < target.maxSlice)
    (small : step < 2 ^ 31) :
    add target position step =
      (.ok (position + step) : Except (Failure Error) Nat) := by
  have large := target.maxSlice_large
  apply add_of_lt
  rw [target.size_eq]
  omega

/-- A sum is exact, or it overflowed: then it panicked or wrapped around. -/
theorem add_cases
    {target : Target}
    (first second : Nat)
    (firstWord : first < target.size)
    (secondWord : second < target.size) :
    first + second < target.size ∧
        add target first second =
          (.ok (first + second) : Except (Failure Error) Nat) ∨
      target.size ≤ first + second ∧
        (add target first second =
            (.error .panic : Except (Failure Error) Nat) ∨
          ∃ wrapped,
            wrapped + target.size = first + second ∧
              wrapped < second ∧
              wrapped < first ∧
              add target first second =
                (.ok wrapped : Except (Failure Error) Nat)) := by
  by_cases fits : first + second < target.size
  · exact .inl ⟨fits, if_pos fits⟩
  · refine .inr ⟨Nat.le_of_not_lt fits, ?_⟩
    unfold add
    rw [if_neg fits]
    cases target.overflowChecks with
    | true =>
        exact .inl rfl
    | false =>
        have remainder :
            (first + second) % target.size =
              first + second - target.size := by
          rw [Nat.mod_eq_sub_mod (Nat.le_of_not_lt fits),
            Nat.mod_eq_of_lt]
          omega
        refine .inr ⟨first + second - target.size, ?_, ?_, ?_, ?_⟩
        · omega
        · omega
        · omega
        · rw [remainder]
          rfl

/-- A range inside the items is a slice. -/
theorem slice_ok
    {items : List α}
    {start stop : Nat}
    (ordered : start ≤ stop)
    (inside : stop ≤ items.length) :
    slice items start stop =
      (.ok ((items.drop start).take (stop - start)) :
        Except (Failure Error) (List α)) :=
  if_pos ⟨ordered, inside⟩

/-- A range that is inverted or runs out of the items panics. -/
theorem slice_panic
    {items : List α}
    {start stop : Nat}
    (outside : stop < start ∨ items.length < stop) :
    slice items start stop =
      (.error .panic : Except (Failure Error) (List α)) := by
  apply if_neg
  omega

end Usize
