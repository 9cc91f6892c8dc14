import Bam.Lib.DoubleWord

namespace Bam

/-!
# The base field of BLS12-381

A field element is two 256-bit words.  The arithmetic compares with and
subtracts the number that the two words of the prime spell; `prime` is the prime
itself.
-/

namespace BLS12381

/-- `uint256 low, uint256 high`. -/
abbrev Fp := DoubleWord 256

def P_LOW : BitVec 256 :=
  0x6730d2a0f6b0f6241eabfffeb153ffffb9feffffffffaaab

def P_HIGH : BitVec 256 :=
  0x1a0111ea397fe69a4b1ba7b6434bacd764774b84f38512bf

def P_PLUS_1_DIV_4_LOW : BitVec 256 :=
  0x59cd1902557472b4abfffffdd4fffffe34bfffffffbaaac

def P_PLUS_1_DIV_4_HIGH : BitVec 256 :=
  0x680447a8e5ff9a692c6e9ed90d2eb35d91dd2e13ce144afd

/-- `P_LOW, P_HIGH`, as the arithmetic takes them. -/
def primeWords : Fp where
  low := P_LOW
  high := P_HIGH

/-- The prime, in its 381 bits. -/
def prime : Nat :=
  0x1a0111ea397fe69a4b1ba7b6434bacd764774b84f38512bf6730d2a0f6b0f6241eabfffeb153ffffb9feffffffffaaab

/-- A representation of a field element. -/
def InField (a : Fp) : Prop :=
  a.value < prime

instance (a : Fp) : Decidable (InField a) :=
  inferInstanceAs (Decidable (a.value < prime))

inductive Error where
  | divisionByZero
  deriving Repr, DecidableEq

/-- `fpAdd`. -/
def fpAdd (a b : Fp) : Fp :=
  let r := a.add b
  if r.gte primeWords then r.sub primeWords else r

/-- `fpSub`. -/
def fpSub (a b : Fp) : Fp :=
  let a := if a.lt b then a.add primeWords else a
  a.sub b

/-- `fpNeg`. -/
def fpNeg (a : Fp) : Fp :=
  if a.low = 0 ∧ a.high = 0 then ⟨0, 0⟩
  else primeWords.sub a

theorem value_sub_primeWords_lt
    {r : Fp}
    (reaches : r.gte primeWords = true) :
    (r.sub primeWords).value < r.value := by
  have positive : 0 < primeWords.value := by
    decide +kernel
  have ordered := (DoubleWord.gte_iff r primeWords).mp reaches
  rw [DoubleWord.value_sub ordered]
  omega

/-- What the last loop of `_reduce768` ends with, however many rounds it
takes. -/
def subtractPrime (r : Fp) : Fp :=
  if r.gte primeWords then subtractPrime (r.sub primeWords) else r
termination_by r.value
decreasing_by
  exact value_sub_primeWords_lt ‹_›

/-- The first loop of `_reduce768`, with its rounds. -/
def addPrime (r : Fp) (rounds : Nat) : Fp :=
  (fun r => r.add primeWords)^[rounds] r

/-- `_reduce768`. -/
def reduce768 (r0 r1 r2 : BitVec 256) : Fp :=
  subtractPrime (addPrime ⟨r0, r1⟩ (min r2.toNat 1000))

/-- `fpMul`. -/
def fpMul (a b : Fp) : Fp :=
  let (r0, r1, r2) := a.mul b
  reduce768 r0 r1 r2

/-- `fpSquare`. -/
def fpSquare (a : Fp) : Fp :=
  fpMul a a

/-- One round of `fpExp` over a word of the exponent; `square` says whether the
base is squared after it. -/
def expRound
    (e : BitVec 256)
    (square : Nat → Bool)
    (state : Fp × Fp)
    (i : Nat) : Fp × Fp :=
  let (r, base) := state
  let r := if (e >>> i) &&& 1 = 1 then fpMul r base else r
  (r, if square i then fpSquare base else base)

/-- `fpExp`. -/
def fpExp (a e : Fp) : Fp :=
  let low :=
    (List.range 256).foldl (expRound e.low fun _ => true)
      ((⟨1, 0⟩ : Fp), a)
  let high :=
    (List.range 125).foldl (expRound e.high fun i => i < 124) low
  high.1

/-- `fpInv`. -/
def fpInv (a : Fp) : Except Error Fp :=
  if a.low = 0 ∧ a.high = 0 then .error .divisionByZero
  else .ok (fpExp a ⟨P_LOW - 2, P_HIGH⟩)

/-- `fpSqrt`, with whether the candidate is a root. -/
def fpSqrt (a : Fp) : Fp × Bool :=
  let r := fpExp a ⟨P_PLUS_1_DIV_4_LOW, P_PLUS_1_DIV_4_HIGH⟩
  (r, fpSquare r = a)

/-- The words of the prime spell a larger number. -/
theorem prime_lt_primeWords :
    prime < primeWords.value := by
  decide +kernel

theorem value_one :
    (⟨1, 0⟩ : Fp).value = 1 := by
  decide +kernel

theorem value_zero :
    (⟨0, 0⟩ : Fp).value = 0 := by
  decide +kernel

theorem value_eq_zero_iff (a : Fp) :
    a.low = 0 ∧ a.high = 0 ↔ a.value = 0 := by
  constructor
  · rintro ⟨low, high⟩
    simp [DoubleWord.value, low, high]
  · intro zero
    have same : a = ⟨0, 0⟩ := by
      rw [← DoubleWord.value_inj, zero, value_zero]
    rw [same]
    exact ⟨rfl, rfl⟩

theorem value_subtractPrime (r : Fp) :
    (subtractPrime r).value = r.value % primeWords.value := by
  induction r using subtractPrime.induct with
  | case1 r reaches inductionHypothesis =>
      have ordered := (DoubleWord.gte_iff r primeWords).mp reaches
      rw [subtractPrime, if_pos reaches, inductionHypothesis,
        DoubleWord.value_sub ordered, ← Nat.mod_eq_sub_mod ordered]
  | case2 r below =>
      rw [DoubleWord.gte_iff, Nat.not_le] at below
      rw [subtractPrime, if_neg (by simpa using below),
        Nat.mod_eq_of_lt below]

theorem value_addPrime (r : Fp) (rounds : Nat) :
    (addPrime r rounds).value =
      (r.value + rounds * primeWords.value) %
        (2 ^ 256 * 2 ^ 256) :=
  DoubleWord.value_iterate_add r primeWords rounds

/-- What the reduction makes of a number of three words. -/
def reduced (product : Nat) : Nat :=
  (product % (2 ^ 256 * 2 ^ 256) +
      min (product / (2 ^ 256 * 2 ^ 256)) 1000 * primeWords.value) %
    (2 ^ 256 * 2 ^ 256) % primeWords.value

/-- The two words below the third of a number, and the third. -/
theorem words_of_number (r0 r1 r2 : BitVec 256) :
    (r0.toNat + r1.toNat * 2 ^ 256 + r2.toNat * (2 ^ 256 * 2 ^ 256)) %
        (2 ^ 256 * 2 ^ 256) = (⟨r0, r1⟩ : Fp).value ∧
      (r0.toNat + r1.toNat * 2 ^ 256 + r2.toNat * (2 ^ 256 * 2 ^ 256)) /
        (2 ^ 256 * 2 ^ 256) = r2.toNat := by
  have small : r1.toNat * 2 ^ 256 + r0.toNat < 2 ^ 256 * 2 ^ 256 :=
    DoubleWord.value_lt ⟨r0, r1⟩
  constructor
  · rw [Nat.add_mul_mod_self_right, Nat.add_comm, Nat.mod_eq_of_lt small]
    rfl
  · rw [Nat.add_mul_div_right _ _ (by decide), Nat.add_comm r0.toNat,
      Nat.div_eq_of_lt small, Nat.zero_add]

theorem value_reduce768 (r0 r1 r2 : BitVec 256) :
    (reduce768 r0 r1 r2).value =
      reduced
        (r0.toNat + r1.toNat * 2 ^ 256 +
          r2.toNat * (2 ^ 256 * 2 ^ 256)) := by
  obtain ⟨wrapped, carried⟩ := words_of_number r0 r1 r2
  rw [reduce768, value_subtractPrime, value_addPrime, reduced, wrapped,
    carried]

/-- A product, out of its three words. -/
theorem value_fpMul (a b : Fp) :
    (fpMul a b).value =
      reduced (a.value * b.value % (2 ^ 256 * (2 ^ 256 * 2 ^ 256))) := by
  rw [← DoubleWord.value_mul (by decide) a b]
  exact value_reduce768 _ _ _

end BLS12381

end Bam
