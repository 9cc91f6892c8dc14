import Mathlib.Data.Nat.Log
import Mathlib.Tactic.Ring

namespace Binary64

/-!
# Natural numbers as IEEE 754 doubles

A natural number is rounded to the nearest double, ties to the even one, and a
double is printed with the fewest digits that are read back as it, the nearest
of them where there are several.  Numbers stay far below the overflow threshold,
so the exponent is not bounded.
-/

/-- A quotient rounded to the nearest number, ties to the even one. -/
def divNearest (number unit : Nat) : Nat :=
  let quotient := number / unit
  let rest := number % unit
  if 2 * rest < unit then quotient
  else if unit < 2 * rest then quotient + 1
  else quotient + quotient % 2

/-- The distance of the doubles around a number. -/
def spacing (number : Nat) : Nat :=
  2 ^ (number.log2 - 52)

/-- The double nearest to a number. -/
def nearest (number : Nat) : Nat :=
  divNearest number (spacing number) * spacing number

/-- The two multiples of a unit around a number, the nearer one first. -/
def multiplesAround (number unit : Nat) : List Nat :=
  let below := number / unit * unit
  let above := below + unit
  if divNearest number unit = number / unit then [below, above]
  else [above, below]

/-- The printed value of a double, from a power of ten on. -/
def shortestFrom (double : Nat) : Nat → Nat
  | 0 => double
  | exponent + 1 =>
      match (multiplesAround double (10 ^ (exponent + 1))).find?
          fun candidate => nearest candidate = double with
      | some candidate => candidate
      | none => shortestFrom double exponent

/-- The value a double is printed as. -/
def shortest (double : Nat) : Nat :=
  shortestFrom double double.log2

section Rounding

theorem spacing_pos
    (number : Nat) :
    0 < spacing number :=
  Nat.two_pow_pos _

theorem div_le_divNearest
    (number unit : Nat) :
    number / unit ≤ divNearest number unit := by
  simp only [divNearest]
  split
  · exact Nat.le_refl _
  · split <;> omega

theorem divNearest_le
    (number unit : Nat) :
    divNearest number unit ≤ number / unit + 1 := by
  simp only [divNearest]
  split
  · omega
  · split <;> omega

/-- Rounding to multiples of one unit keeps the order. -/
theorem divNearest_mono
    {unit smaller larger : Nat}
    (le : smaller ≤ larger) :
    divNearest smaller unit ≤ divNearest larger unit := by
  have quotients : smaller / unit ≤ larger / unit :=
    Nat.div_le_div_right le
  rcases Nat.lt_or_eq_of_le quotients with less | same
  · exact Nat.le_trans (divNearest_le smaller unit)
      (Nat.le_trans less (div_le_divNearest larger unit))
  · have rests : smaller % unit ≤ larger % unit := by
      have smallerSplit := Nat.div_add_mod smaller unit
      have largerSplit := Nat.div_add_mod larger unit
      rw [same] at smallerSplit
      omega
    simp only [divNearest, same]
    split <;> split <;> (try split) <;> (try split) <;> omega

/-- A multiple of the unit is not rounded. -/
theorem divNearest_mul_of_dvd
    {number unit : Nat}
    (positive : 0 < unit)
    (divides : unit ∣ number) :
    divNearest number unit * unit = number := by
  have exactly : number % unit = 0 := Nat.mod_eq_zero_of_dvd divides
  rw [divNearest, exactly, Nat.mul_zero, if_pos positive]
  exact Nat.div_mul_cancel divides

theorem nearest_of_dvd
    {number : Nat}
    (divides : spacing number ∣ number) :
    nearest number = number :=
  divNearest_mul_of_dvd (spacing_pos number) divides

theorem nearest_of_lt
    {number : Nat}
    (small : number < 2 ^ 53) :
    nearest number = number := by
  have isOne : spacing number = 1 := by
    have bound : number.log2 - 52 = 0 := by
      by_cases isZero : number = 0
      · rw [isZero]
        rfl
      · have := (Nat.log2_lt isZero).mpr small
        omega
    rw [spacing, bound, Nat.pow_zero]
  exact nearest_of_dvd (isOne ▸ Nat.one_dvd number)

/-- A double is at most the next power of two. -/
theorem nearest_le_two_pow
    (number : Nat) :
    nearest number ≤ 2 ^ (number.log2 + 1) := by
  have less : number < 2 ^ (number.log2 + 1) := Nat.lt_log2_self
  by_cases small : number < 2 ^ 53
  · rw [nearest_of_lt small]
    exact Nat.le_of_lt less
  · have large : 53 ≤ number.log2 :=
      (Nat.le_log2 (by omega)).mpr (Nat.not_lt.mp small)
    have split :
        2 ^ (number.log2 + 1) = 2 ^ 53 * spacing number := by
      rw [spacing, ← Nat.pow_add]
      congr 1
      omega
    rw [split] at less ⊢
    refine Nat.mul_le_mul_right _ ?_
    have quotient : number / spacing number < 2 ^ 53 :=
      Nat.div_lt_of_lt_mul (by rwa [Nat.mul_comm])
    exact Nat.le_trans (divNearest_le _ _) quotient

/-- A double is at least the power of two below. -/
theorem two_pow_le_nearest
    {number : Nat}
    (nonzero : number ≠ 0) :
    2 ^ number.log2 ≤ nearest number := by
  have atLeast : 2 ^ number.log2 ≤ number := Nat.log2_self_le nonzero
  by_cases small : number < 2 ^ 53
  · rw [nearest_of_lt small]
    exact atLeast
  · have large : 53 ≤ number.log2 :=
      (Nat.le_log2 nonzero).mpr (Nat.not_lt.mp small)
    have split : 2 ^ number.log2 = 2 ^ 52 * spacing number := by
      rw [spacing, ← Nat.pow_add]
      congr 1
      omega
    rw [split] at atLeast ⊢
    refine Nat.mul_le_mul_right _ ?_
    have quotient : 2 ^ 52 ≤ number / spacing number :=
      (Nat.le_div_iff_mul_le (spacing_pos number)).mpr atLeast
    exact Nat.le_trans quotient (div_le_divNearest _ _)

/-- Rounding keeps the order. -/
theorem nearest_mono
    {smaller larger : Nat}
    (le : smaller ≤ larger) :
    nearest smaller ≤ nearest larger := by
  by_cases isZero : smaller = 0
  · rw [isZero, nearest_of_lt (by decide)]
    exact Nat.zero_le _
  · have positive : larger ≠ 0 := by omega
    have logs : smaller.log2 ≤ larger.log2 :=
      (Nat.le_log2 positive).mpr
        (Nat.le_trans (Nat.log2_self_le isZero) le)
    rcases Nat.lt_or_eq_of_le logs with less | same
    · exact Nat.le_trans (nearest_le_two_pow smaller)
        (Nat.le_trans (Nat.pow_le_pow_right (by decide) less)
          (two_pow_le_nearest positive))
    · have sameSpacing : spacing smaller = spacing larger := by
        rw [spacing, spacing, same]
      rw [nearest, nearest, sameSpacing]
      exact Nat.mul_le_mul_right _ (divNearest_mono le)

/-- A double is not rounded any more. -/
theorem nearest_nearest
    (number : Nat) :
    nearest (nearest number) = nearest number := by
  by_cases isZero : number = 0
  · rw [isZero]
    rfl
  · refine nearest_of_dvd ?_
    have atLeast := two_pow_le_nearest isZero
    have atMost := nearest_le_two_pow number
    have nonzero : nearest number ≠ 0 :=
      Nat.ne_of_gt (Nat.lt_of_lt_of_le (Nat.two_pow_pos _) atLeast)
    rcases Nat.lt_or_eq_of_le atMost with less | isPower
    · have sameLog : (nearest number).log2 = number.log2 :=
        (Nat.log2_eq_iff nonzero).mpr ⟨atLeast, less⟩
      rw [spacing, sameLog]
      exact Nat.dvd_mul_left _ _
    · rw [isPower, spacing, Nat.log2_two_pow]
      exact Nat.pow_dvd_pow 2 (Nat.sub_le _ 52)

/-- A number that rounds to a small double is that double. -/
theorem nearest_of_nearest_lt
    {number : Nat}
    (small : nearest number < 2 ^ 53) :
    nearest number = number := by
  apply nearest_of_lt
  by_contra large
  have rounded := nearest_mono (Nat.le_of_not_lt large)
  have isDouble : nearest (2 ^ 53) = 2 ^ 53 := by
    decide +kernel
  rw [isDouble] at rounded
  exact Nat.not_le.mpr small rounded

theorem spacing_dvd_of_double
    {number : Nat}
    (isDouble : nearest number = number) :
    spacing number ∣ number :=
  ⟨divNearest number (spacing number), by
    rw [Nat.mul_comm]
    exact isDouble.symm⟩

/-- The low bits of a double are a double. -/
theorem nearest_low
    {low high width : Nat}
    (below : low < 2 ^ width)
    (isDouble :
      nearest (low + 2 ^ width * high) = low + 2 ^ width * high) :
    nearest low = low := by
  by_cases isZero : low = 0
  · rw [isZero]
    rfl
  have logs : low.log2 ≤ (low + 2 ^ width * high).log2 :=
    (Nat.le_log2 (by omega)).mpr
      ((Nat.log2_self_le isZero).trans (Nat.le_add_right _ _))
  have divides : spacing low ∣ low + 2 ^ width * high :=
    (Nat.pow_dvd_pow 2 (Nat.sub_le_sub_right logs 52)).trans
      (spacing_dvd_of_double isDouble)
  have inWidth : low.log2 < width := (Nat.log2_lt isZero).mpr below
  have dividesHigh : spacing low ∣ 2 ^ width * high :=
    (Nat.pow_dvd_pow 2 ((Nat.sub_le _ 52).trans inWidth.le)).trans
      (Nat.dvd_mul_right _ _)
  exact nearest_of_dvd ((Nat.dvd_add_left dividesHigh).mp divides)

end Rounding

section Printing

/-- What is printed is read back. -/
theorem nearest_shortestFrom
    {double : Nat}
    (isDouble : nearest double = double)
    (exponent : Nat) :
    nearest (shortestFrom double exponent) = double := by
  induction exponent with
  | zero =>
      exact isDouble
  | succ exponent inductionHypothesis =>
      simp only [shortestFrom]
      split
      · rename_i candidate found
        simpa using List.find?_some found
      · exact inductionHypothesis

theorem nearest_shortest
    {double : Nat}
    (isDouble : nearest double = double) :
    nearest (shortest double) = double :=
  nearest_shortestFrom isDouble _

/-- Printing does not cross a double that is printed on its own side. -/
theorem shortest_lt_iff
    {double bound : Nat}
    (isDouble : nearest double = double)
    (boundIsDouble : nearest bound = bound)
    (boundPrinted : bound ≤ shortest bound) :
    shortest double < bound ↔ double < bound := by
  have readBack := nearest_shortest isDouble
  constructor
  · intro printed
    have atMost : double ≤ bound := by
      rw [← readBack, ← boundIsDouble]
      exact nearest_mono (Nat.le_of_lt printed)
    refine Nat.lt_of_le_of_ne atMost ?_
    rintro rfl
    exact Nat.not_lt.mpr boundPrinted printed
  · intro less
    refine Nat.lt_of_not_le fun reached => Nat.not_le.mpr less ?_
    rw [← readBack, ← boundIsDouble]
    exact nearest_mono reached

end Printing

/-- The largest safe integer and the doubles around the bounds of a 64-bit
integer. -/
example :
    nearest (2 ^ 53 + 1) = 2 ^ 53 ∧
      nearest (2 ^ 63 - 513) = 2 ^ 63 - 1024 ∧
      nearest (2 ^ 63 - 512) = 2 ^ 63 ∧
      shortest (2 ^ 63) = 9223372036854776000 ∧
      shortest (2 ^ 64) = 18446744073709552000 := by
  decide +kernel

end Binary64
