import Mathlib.Logic.Function.Iterate
import Mathlib.Tactic.LinearCombination
import Mathlib.Tactic.Ring

/-!
# Numbers in two machine words

A number as a low and a high word, with the operations of wrapping word
arithmetic: the carry of a sum is read off a comparison, as is the borrow of a
difference, and the high word of a product is the product modulo the largest
word, less its low word.
-/

structure DoubleWord (width : Nat) where
  low : BitVec width
  high : BitVec width
  deriving DecidableEq, Repr

namespace DoubleWord

variable {width : Nat}

/-- The number two words stand for. -/
def value (number : DoubleWord width) : Nat :=
  number.high.toNat * 2 ^ width + number.low.toNat

/-- The words of a number. -/
def ofNat (width number : Nat) : DoubleWord width where
  low := BitVec.ofNat width number
  high := BitVec.ofNat width (number / 2 ^ width)

/-- The sum of two words, with its carry. -/
def add (first second : DoubleWord width) : DoubleWord width :=
  let low := first.low + second.low
  let carry := if low < first.low then BitVec.ofNat width 1 else BitVec.ofNat width 0
  { low := low, high := first.high + second.high + carry }

/-- The difference of two words, with its borrow. -/
def sub (first second : DoubleWord width) : DoubleWord width :=
  let borrow := if first.low < second.low then BitVec.ofNat width 1 else BitVec.ofNat width 0
  { low := first.low - second.low
    high := first.high - second.high - borrow }

/-- `first >= second`, the high words first. -/
def gte (first second : DoubleWord width) : Bool :=
  if second.high < first.high then true
  else if first.high < second.high then false
  else second.low ≤ first.low

/-- `first < second`, the high words first. -/
def lt (first second : DoubleWord width) : Bool :=
  if first.high < second.high then true
  else if second.high < first.high then false
  else first.low < second.low

/-- The low word of a product. -/
def mulLow (first second : BitVec width) : BitVec width :=
  first * second

/-- The high word of a product, out of the product modulo the largest word. -/
def mulHigh (first second : BitVec width) : BitVec width :=
  let folded :=
    BitVec.ofNat width
      (first.toNat * second.toNat % (2 ^ width - 1))
  let low := first * second
  folded - low - (if folded < low then BitVec.ofNat width 1 else BitVec.ofNat width 0)

/-- The sum of two words with what it carries out. -/
def addCarry (first second : BitVec width) :
    BitVec width × BitVec width :=
  let sum := first + second
  (sum, if sum < first then BitVec.ofNat width 1 else BitVec.ofNat width 0)

/-- The three low words of a product, least first, out of the products of the
words; the high word of the highest product is left out. -/
def mul (first second : DoubleWord width) :
    BitVec width × BitVec width × BitVec width :=
  let ll := mulLow first.low second.low
  let lh := mulHigh first.low second.low
  let hl := mulLow first.high second.low
  let hh := mulHigh first.high second.low
  let lh2 := mulLow first.low second.high
  let hh2 := mulHigh first.low second.high
  let hh3 := mulLow first.high second.high
  let (sum, carry) := addCarry lh hl
  let (r1, carry2) := addCarry sum lh2
  (ll, r1, hh + hh2 + hh3 + (carry + carry2))

theorem value_lt (number : DoubleWord width) :
    number.value < 2 ^ width * 2 ^ width := by
  have low := number.low.isLt
  have high := number.high.isLt
  have whole :
      (number.high.toNat + 1) * 2 ^ width ≤ 2 ^ width * 2 ^ width :=
    Nat.mul_le_mul_right _ high
  rw [Nat.add_mul, Nat.one_mul] at whole
  unfold value
  omega

theorem value_div (number : DoubleWord width) :
    number.value / 2 ^ width = number.high.toNat := by
  rw [value, Nat.mul_comm, Nat.mul_add_div (Nat.two_pow_pos width),
    Nat.div_eq_of_lt number.low.isLt, Nat.add_zero]

theorem value_mod (number : DoubleWord width) :
    number.value % 2 ^ width = number.low.toNat := by
  rw [value, Nat.mul_comm, Nat.mul_add_mod,
    Nat.mod_eq_of_lt number.low.isLt]

/-- The words are those of the number they stand for. -/
theorem ofNat_value (number : DoubleWord width) :
    ofNat width number.value = number := by
  obtain ⟨low, high⟩ := number
  rw [ofNat, mk.injEq]
  constructor
  · apply BitVec.eq_of_toNat_eq
    rw [BitVec.toNat_ofNat, value_mod]
  · apply BitVec.eq_of_toNat_eq
    rw [BitVec.toNat_ofNat, value_div, Nat.mod_eq_of_lt high.isLt]

theorem value_inj {first second : DoubleWord width} :
    first.value = second.value ↔ first = second := by
  constructor
  · intro same
    rw [← ofNat_value first, same, ofNat_value]
  · rintro rfl
    rfl

@[simp] theorem gte_iff (first second : DoubleWord width) :
    gte first second = true ↔ second.value ≤ first.value := by
  have lowFirst := first.low.isLt
  have lowSecond := second.low.isLt
  simp only [gte, BitVec.lt_def, BitVec.le_def, value]
  rcases Nat.lt_trichotomy first.high.toNat second.high.toNat with
    less | same | more
  · have step :
        (first.high.toNat + 1) * 2 ^ width ≤
          second.high.toNat * 2 ^ width :=
      Nat.mul_le_mul_right _ less
    rw [Nat.add_mul, Nat.one_mul] at step
    rw [if_neg (by omega), if_pos less]
    simp only [Bool.false_eq_true, false_iff]
    omega
  · rw [if_neg (by omega), if_neg (by omega), same]
    simp only [decide_eq_true_eq]
    omega
  · have step :
        (second.high.toNat + 1) * 2 ^ width ≤
          first.high.toNat * 2 ^ width :=
      Nat.mul_le_mul_right _ more
    rw [Nat.add_mul, Nat.one_mul] at step
    rw [if_pos more]
    simp only [true_iff]
    omega

/-- The two comparisons are each other's negation. -/
theorem lt_eq_not_gte (first second : DoubleWord width) :
    lt first second = !gte first second := by
  simp only [lt, gte, BitVec.lt_def, BitVec.le_def]
  rcases Nat.lt_trichotomy first.high.toNat second.high.toNat with
    less | same | more
  · rw [if_pos less, if_neg (by omega), if_pos less, Bool.not_false]
  · rw [if_neg (by omega), if_neg (by omega), if_neg (by omega),
      if_neg (by omega), ← decide_not]
    simp only [Nat.not_le]
  · rw [if_neg (by omega), if_pos more, if_pos more, Bool.not_true]

@[simp] theorem lt_iff (first second : DoubleWord width) :
    lt first second = true ↔ first.value < second.value := by
  rw [lt_eq_not_gte, Bool.not_eq_true', ← Bool.not_eq_true, gte_iff,
    Nat.not_le]

/-- Wrapping a number above its low digit wraps its high digit. -/
theorem digits_mod
    {base wide high low : Nat}
    (small : low < base) :
    (high * base + low) % (base * wide) = high % wide * base + low := by
  have positive : 0 < base := Nat.zero_lt_of_lt small
  rw [Nat.mod_mul, Nat.mul_comm high, Nat.mul_add_mod,
    Nat.mod_eq_of_lt small, Nat.mul_add_div positive,
    Nat.div_eq_of_lt small, Nat.add_zero, Nat.mul_comm base, Nat.add_comm]

/-- A sum of words is smaller than its first summand exactly if it wrapped. -/
theorem toNat_add_cases (first second : BitVec width) :
    (¬ first + second < first ∧
        (first + second).toNat = first.toNat + second.toNat) ∨
      (first + second < first ∧
        (first + second).toNat + 2 ^ width =
          first.toNat + second.toNat) := by
  have firstSmall := first.isLt
  have secondSmall := second.isLt
  rw [BitVec.lt_def, BitVec.toNat_add]
  rcases Nat.lt_or_ge (first.toNat + second.toNat) (2 ^ width) with
    fits | wraps
  · left
    rw [Nat.mod_eq_of_lt fits]
    omega
  · right
    rw [Nat.mod_eq_sub_mod wraps, Nat.mod_eq_of_lt (by omega)]
    omega

/-- A difference of words wrapped exactly if its borrow is set. -/
theorem toNat_sub_cases (first second : BitVec width) :
    (¬ first < second ∧
        (first - second).toNat + second.toNat = first.toNat) ∨
      (first < second ∧
        (first - second).toNat + second.toNat =
          first.toNat + 2 ^ width) := by
  have firstSmall := first.isLt
  have secondSmall := second.isLt
  rw [BitVec.lt_def]
  rcases Nat.lt_or_ge first.toNat second.toNat with less | more
  · right
    rw [BitVec.toNat_sub_of_lt less]
    omega
  · left
    rw [BitVec.toNat_sub_of_le more]
    omega

/-- The only word of a width that can hold a set carry holds it. -/
theorem toNat_one_of_lt
    {first second : BitVec width}
    (less : first < second) :
    (BitVec.ofNat width 1).toNat = 1 := by
  have small := second.isLt
  rw [BitVec.lt_def] at less
  rw [BitVec.toNat_ofNat, Nat.mod_eq_of_lt]
  omega

/-- A sum of words is the sum of the numbers, wrapped. -/
theorem value_add (first second : DoubleWord width) :
    (add first second).value =
      (first.value + second.value) % (2 ^ width * 2 ^ width) := by
  have small := (first.low + second.low).isLt
  rcases toNat_add_cases first.low second.low with
    ⟨fits, sum⟩ | ⟨wraps, sum⟩
  · have together :
        first.value + second.value =
          (first.high.toNat + second.high.toNat) * 2 ^ width +
            (first.low + second.low).toNat := by
      rw [sum, value, value]
      ring
    rw [together, digits_mod small]
    simp only [add, value, if_neg fits, BitVec.toNat_add,
      BitVec.toNat_zero, Nat.add_zero, Nat.mod_mod]
  · have together :
        first.value + second.value =
          (first.high.toNat + second.high.toNat + 1) * 2 ^ width +
            (first.low + second.low).toNat := by
      have grouped :
          first.value + second.value =
            (first.high.toNat + second.high.toNat) * 2 ^ width +
              (first.low.toNat + second.low.toNat) := by
        rw [value, value]
        ring
      rw [grouped, ← sum]
      ring
    rw [together, digits_mod small]
    simp only [add, value, if_pos wraps, BitVec.toNat_add,
      toNat_one_of_lt wraps, Nat.mod_add_mod]

/-- Adding a number over and over adds its multiple, wrapped. -/
theorem value_iterate_add
    (start summand : DoubleWord width)
    (rounds : Nat) :
    ((fun number => add number summand)^[rounds] start).value =
      (start.value + rounds * summand.value) %
        (2 ^ width * 2 ^ width) := by
  induction rounds generalizing start with
  | zero =>
      rw [Function.iterate_zero, Nat.zero_mul, Nat.add_zero,
        Nat.mod_eq_of_lt start.value_lt]
      rfl
  | succ rounds inductionHypothesis =>
      rw [Function.iterate_succ_apply, inductionHypothesis, value_add,
        Nat.mod_add_mod, Nat.add_mul, Nat.one_mul, Nat.add_assoc,
        Nat.add_comm summand.value]

/-- A difference of words is the difference of the numbers. -/
theorem value_sub
    {first second : DoubleWord width}
    (ordered : second.value ≤ first.value) :
    (sub first second).value = first.value - second.value := by
  have lowSmall := (first.low - second.low).isLt
  have secondSmall := second.low.isLt
  have firstHigh := first.high.isLt
  unfold value at ordered
  rcases toNat_sub_cases first.low second.low with
    ⟨kept, difference⟩ | ⟨borrowed, difference⟩
  · have highs : second.high ≤ first.high := by
      rw [BitVec.le_def]
      by_contra less
      have step :
          (first.high.toNat + 1) * 2 ^ width ≤
            second.high.toNat * 2 ^ width :=
        Nat.mul_le_mul_right _ (Nat.not_le.mp less)
      rw [Nat.add_mul, Nat.one_mul] at step
      omega
    have highPart := BitVec.toNat_sub_of_le highs
    have step :
        second.high.toNat * 2 ^ width ≤ first.high.toNat * 2 ^ width :=
      Nat.mul_le_mul_right _ highs
    simp only [sub, value, if_neg kept, BitVec.sub_zero, highPart,
      Nat.sub_mul]
    omega
  · have highs : second.high < first.high := by
      rw [BitVec.lt_def] at borrowed ⊢
      by_contra less
      have step :
          first.high.toNat * 2 ^ width ≤
            second.high.toNat * 2 ^ width :=
        Nat.mul_le_mul_right _ (Nat.not_lt.mp less)
      omega
    rw [BitVec.lt_def] at highs
    have highPart := BitVec.toNat_sub_of_le (BitVec.le_def.mpr highs.le)
    have one := toNat_one_of_lt borrowed
    have positive :
        BitVec.ofNat width 1 ≤ first.high - second.high := by
      rw [BitVec.le_def, one, highPart]
      omega
    have step :
        (second.high.toNat + 1) * 2 ^ width ≤
          first.high.toNat * 2 ^ width :=
      Nat.mul_le_mul_right _ highs
    simp only [sub, value, if_pos borrowed,
      BitVec.toNat_sub_of_le positive, highPart, one, Nat.sub_mul,
      Nat.one_mul]
    rw [Nat.add_mul, Nat.one_mul] at step
    omega

theorem toNat_mulLow (first second : BitVec width) :
    (mulLow first second).toNat =
      first.toNat * second.toNat % 2 ^ width :=
  BitVec.toNat_mul first second

/-- Folding a number at the largest word adds its two words, less the largest
word where the sum reaches it. -/
theorem mod_pred_cases
    {base high low : Nat}
    (highSmall : high + 1 < base)
    (lowSmall : low < base) :
    (high + low < base - 1 ∧
        (high * base + low) % (base - 1) = high + low) ∨
      (base - 1 ≤ high + low ∧
        (high * base + low) % (base - 1) + (base - 1) = high + low) := by
  have split :
      high * base + low = (base - 1) * high + (high + low) := by
    obtain ⟨pred, rfl⟩ : ∃ pred, base = pred + 1 :=
      ⟨base - 1, by omega⟩
    rw [Nat.add_sub_cancel]
    ring
  rw [split, Nat.mul_add_mod]
  rcases Nat.lt_or_ge (high + low) (base - 1) with fits | reaches
  · exact .inl ⟨fits, Nat.mod_eq_of_lt fits⟩
  · right
    rw [Nat.mod_eq_sub_mod reaches, Nat.mod_eq_of_lt (by omega)]
    omega

/-- Where the folded number wrapped, taking the low word off wraps too. -/
theorem wrapped_of_folded
    {base folded high low : Nat}
    (highSmall : high + 1 < base)
    (lowSmall : low < base)
    (sum : folded + (base - 1) = high + low) :
    1 ≤ base - (low - folded) ∧ base - (low - folded) - 1 = high := by
  omega

/-- The high word of a product of words is short of the largest word. -/
theorem mul_div_lt
    {base first second : Nat}
    (wide : 1 < base)
    (firstSmall : first < base)
    (secondSmall : second < base) :
    first * second / base + 1 < base := by
  obtain ⟨pred, rfl⟩ : ∃ pred, base = pred + 2 :=
    ⟨base - 2, by omega⟩
  have product :
      first * second ≤ (pred + 1) * (pred + 1) :=
    Nat.mul_le_mul (by omega) (by omega)
  have below :
      first * second / (pred + 2) < pred + 1 := by
    apply Nat.div_lt_of_lt_mul
    calc
      first * second ≤ (pred + 1) * (pred + 1) := product
      _ < (pred + 2) * (pred + 1) := by
          exact Nat.mul_lt_mul_of_pos_right (by omega) (by omega)
  omega

theorem toNat_mulHigh
    (positive : 0 < width)
    (first second : BitVec width) :
    (mulHigh first second).toNat =
      first.toNat * second.toNat / 2 ^ width := by
  have wide : 1 < 2 ^ width := Nat.one_lt_two_pow positive.ne'
  have highSmall := mul_div_lt wide first.isLt second.isLt
  have lowSmall :
      first.toNat * second.toNat % 2 ^ width < 2 ^ width :=
    Nat.mod_lt _ (Nat.two_pow_pos width)
  have low := BitVec.toNat_mul first second
  have folded := mod_pred_cases highSmall lowSmall
  rw [Nat.div_add_mod'] at folded
  have word :
      (BitVec.ofNat width
          (first.toNat * second.toNat % (2 ^ width - 1))).toNat =
        first.toNat * second.toNat % (2 ^ width - 1) := by
    have below :
        first.toNat * second.toNat % (2 ^ width - 1) < 2 ^ width - 1 :=
      Nat.mod_lt _ (by omega)
    rw [BitVec.toNat_ofNat, Nat.mod_eq_of_lt]
    omega
  rcases folded with ⟨fits, sum⟩ | ⟨reaches, sum⟩
  · have kept :
        ¬ BitVec.ofNat width
            (first.toNat * second.toNat % (2 ^ width - 1)) <
          first * second := by
      rw [BitVec.lt_def, word, low, sum]
      exact Nat.not_lt.mpr (Nat.le_add_left _ _)
    have ordered := BitVec.le_def.mpr (Nat.not_lt.mp kept)
    simp only [mulHigh, if_neg kept, BitVec.sub_zero,
      BitVec.toNat_sub_of_le ordered, word, low]
    rw [sum]
    exact Nat.add_sub_cancel _ _
  · have borrowed :
        BitVec.ofNat width
            (first.toNat * second.toNat % (2 ^ width - 1)) <
          first * second := by
      rw [BitVec.lt_def, word, low]
      omega
    have one := toNat_one_of_lt borrowed
    have difference := BitVec.toNat_sub_of_lt borrowed
    rw [word, low] at difference
    have wrapped := wrapped_of_folded highSmall lowSmall sum
    have ordered :
        BitVec.ofNat width 1 ≤
          BitVec.ofNat width
              (first.toNat * second.toNat % (2 ^ width - 1)) -
            first * second := by
      rw [BitVec.le_def, one, difference]
      exact wrapped.1
    simp only [mulHigh, if_pos borrowed,
      BitVec.toNat_sub_of_le ordered, difference, one]
    exact wrapped.2

/-- A sum and what it carries out, as numbers. -/
theorem addCarry_cases (first second : BitVec width) :
    ∃ carry : Nat,
      (addCarry first second).2.toNat = carry % 2 ^ width ∧
        (addCarry first second).1.toNat + carry * 2 ^ width =
          first.toNat + second.toNat := by
  rcases toNat_add_cases first second with
    ⟨fits, sum⟩ | ⟨wraps, sum⟩
  · exact ⟨0, by simp [addCarry, if_neg fits], by simp [addCarry, sum]⟩
  · refine ⟨1, ?_, by simp only [addCarry, Nat.one_mul, sum]⟩
    simp only [addCarry, if_pos wraps, BitVec.toNat_ofNat]

/-- The three words of a product stand for it, wrapped. -/
theorem value_mul
    (positive : 0 < width)
    (first second : DoubleWord width) :
    (mul first second).1.toNat +
        (mul first second).2.1.toNat * 2 ^ width +
        (mul first second).2.2.toNat * (2 ^ width * 2 ^ width) =
      first.value * second.value %
        (2 ^ width * (2 ^ width * 2 ^ width)) := by
  obtain ⟨carry, carryWord, carrySum⟩ :=
    addCarry_cases (mulHigh first.low second.low)
      (mulLow first.high second.low)
  obtain ⟨carry2, carry2Word, carry2Sum⟩ :=
    addCarry_cases
      (addCarry (mulHigh first.low second.low)
        (mulLow first.high second.low)).1
      (mulLow first.low second.high)
  have low :
      (mul first second).1.toNat =
        first.low.toNat * second.low.toNat % 2 ^ width :=
    toNat_mulLow first.low second.low
  have middle :
      (mul first second).2.1.toNat + (carry + carry2) * 2 ^ width =
        first.low.toNat * second.low.toNat / 2 ^ width +
          first.high.toNat * second.low.toNat % 2 ^ width +
          first.low.toNat * second.high.toNat % 2 ^ width := by
    rw [toNat_mulHigh positive, toNat_mulLow] at carrySum
    rw [toNat_mulLow] at carry2Sum
    rw [← carrySum, Nat.add_mul, Nat.add_right_comm, ← carry2Sum]
    simp only [mul]
    ring
  have high :
      (mul first second).2.2.toNat =
        (first.high.toNat * second.low.toNat / 2 ^ width +
            first.low.toNat * second.high.toNat / 2 ^ width +
            first.high.toNat * second.high.toNat +
            (carry + carry2)) % 2 ^ width := by
    simp only [mul, BitVec.toNat_add, toNat_mulHigh positive,
      toNat_mulLow, carryWord, carry2Word, Nat.add_mod_mod,
      Nat.mod_add_mod]
  have product :
      first.value * second.value =
        (first.high.toNat * second.low.toNat / 2 ^ width +
            first.low.toNat * second.high.toNat / 2 ^ width +
            first.high.toNat * second.high.toNat +
            (carry + carry2)) * (2 ^ width * 2 ^ width) +
          ((mul first second).2.1.toNat * 2 ^ width +
            (mul first second).1.toNat) := by
    have lowest :=
      Nat.div_add_mod (first.low.toNat * second.low.toNat) (2 ^ width)
    have crossed :=
      Nat.div_add_mod (first.high.toNat * second.low.toNat) (2 ^ width)
    have crossed2 :=
      Nat.div_add_mod (first.low.toNat * second.high.toNat) (2 ^ width)
    rw [value, value, low]
    linear_combination
      -lowest - 2 ^ width * crossed - 2 ^ width * crossed2 -
        2 ^ width * middle
  have small :
      (mul first second).2.1.toNat * 2 ^ width +
          (mul first second).1.toNat <
        2 ^ width * 2 ^ width :=
    value_lt ⟨(mul first second).1, (mul first second).2.1⟩
  rw [product, Nat.mul_comm (2 ^ width) (2 ^ width * 2 ^ width),
    digits_mod small, high]
  ring

end DoubleWord
