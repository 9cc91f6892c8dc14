import Bam.Contracts.BLS12381
import Bam.Lib.Metered

namespace Bam

open Metered

/-!
# The rounds of the field arithmetic

A reduction subtracts the number that the words of the prime spell, once a
round, and a call ends only if its gas pays for every round.  A round of the two
loops of `_reduce768` is the unit here; the loops of `fpExp` have a fixed
length.
-/

namespace BLS12381

/-- The last loop of `_reduce768`, for as long as its rounds are paid for. -/
def subtractPaid : Nat → Fp → Option (Fp × Nat)
  | 0, r => if r.gte primeWords then none else some (r, 0)
  | paid + 1, r =>
      if r.gte primeWords then subtractPaid paid (r.sub primeWords)
      else some (r, paid + 1)

/-- `_reduce768`. -/
def reduce768Paid (r0 r1 r2 : BitVec 256) : Metered Fp := do
  pay (min r2.toNat 1000)
  fun paid => subtractPaid paid (addPrime ⟨r0, r1⟩ (min r2.toNat 1000))

/-- `fpMul`. -/
def fpMulPaid (a b : Fp) : Metered Fp :=
  let (r0, r1, r2) := a.mul b
  reduce768Paid r0 r1 r2

/-- `fpSquare`. -/
def fpSquarePaid (a : Fp) : Metered Fp :=
  fpMulPaid a a

/-- One round of `fpExp` over a word of the exponent. -/
def expRoundPaid
    (e : BitVec 256)
    (square : Nat → Bool)
    (state : Fp × Fp)
    (i : Nat) : Metered (Fp × Fp) :=
  let (r, base) := state
  (if (e >>> i) &&& 1 = 1 then fpMulPaid r base else pure r) >>= fun r =>
    (if square i then fpSquarePaid base else pure base) >>= fun base =>
      pure (r, base)

/-- `fpExp`. -/
def fpExpPaid (a e : Fp) : Metered Fp :=
  (List.range 256).foldlM (expRoundPaid e.low fun _ => true)
      ((⟨1, 0⟩ : Fp), a) >>= fun low =>
    (List.range 125).foldlM (expRoundPaid e.high fun i => i < 124) low >>=
      fun high => pure high.1

/-- `fpInv`. -/
def fpInvPaid (a : Fp) : Metered (Except Error Fp) :=
  if a.low = 0 ∧ a.high = 0 then pure (.error .divisionByZero)
  else do
    let r ← fpExpPaid a ⟨P_LOW - 2, P_HIGH⟩
    pure (.ok r)

/-- The rounds of a multiplication. -/
def mulRounds (a b : Fp) : Nat :=
  let (r0, r1, r2) := a.mul b
  min r2.toNat 1000 +
    (addPrime ⟨r0, r1⟩ (min r2.toNat 1000)).value / primeWords.value

/-- The rounds of a round of `fpExp`. -/
def expRoundRounds
    (e : BitVec 256)
    (square : Nat → Bool)
    (state : Fp × Fp)
    (i : Nat) : Nat :=
  (if (e >>> i) &&& 1 = 1 then mulRounds state.1 state.2 else 0) +
    if square i then mulRounds state.2 state.2 else 0

/-- The rounds of `fpExp`. -/
def fpExpRounds (a e : Fp) : Nat :=
  foldRounds (expRound e.low fun _ => true)
      (expRoundRounds e.low fun _ => true) (List.range 256)
      ((⟨1, 0⟩ : Fp), a) +
    foldRounds (expRound e.high fun i => i < 124)
      (expRoundRounds e.high fun i => i < 124) (List.range 125)
      ((List.range 256).foldl (expRound e.low fun _ => true)
        ((⟨1, 0⟩ : Fp), a))

/-- The loop needs a round for every time the number spelled goes into its
operand. -/
theorem subtractPaid_eq
    (paid : Nat)
    (r : Fp) :
    subtractPaid paid r =
      if r.value / primeWords.value ≤ paid then
        some (subtractPrime r, paid - r.value / primeWords.value)
      else none := by
  have positive : 0 < primeWords.value :=
    Nat.zero_lt_of_lt prime_lt_primeWords
  induction paid generalizing r with
  | zero =>
      unfold subtractPaid
      by_cases reaches : r.gte primeWords = true
      · have ordered := (DoubleWord.gte_iff r primeWords).mp reaches
        have some := Nat.div_pos ordered positive
        rw [if_pos reaches, if_neg (by omega)]
      · have below : r.value < primeWords.value := by
          rw [DoubleWord.gte_iff, Nat.not_le] at reaches
          exact reaches
        rw [if_neg reaches, Nat.div_eq_of_lt below, subtractPrime,
          if_neg reaches]
        rfl
  | succ paid inductionHypothesis =>
      unfold subtractPaid
      by_cases reaches : r.gte primeWords = true
      · have ordered := (DoubleWord.gte_iff r primeWords).mp reaches
        have quotient :
            r.value / primeWords.value =
              (r.value - primeWords.value) / primeWords.value + 1 :=
          Nat.div_eq_sub_div positive ordered
        rw [if_pos reaches, inductionHypothesis, subtractPrime.eq_1 r,
          if_pos reaches, DoubleWord.value_sub ordered, quotient,
          Nat.add_sub_add_right]
        simp only [Nat.add_le_add_iff_right]
      · have below : r.value < primeWords.value := by
          rw [DoubleWord.gte_iff, Nat.not_le] at reaches
          exact reaches
        rw [if_neg reaches, Nat.div_eq_of_lt below, subtractPrime,
          if_neg reaches, if_pos (Nat.zero_le _)]
        rfl

theorem costs_fpMul (a b : Fp) :
    Costs (fpMulPaid a b) (fpMul a b) (mulRounds a b) := by
  unfold fpMulPaid fpMul mulRounds reduce768Paid reduce768
  exact (costs_pay _).bind fun paid => subtractPaid_eq paid _

theorem costs_expRound
    (e : BitVec 256)
    (square : Nat → Bool)
    (state : Fp × Fp)
    (i : Nat) :
    Costs (expRoundPaid e square state i) (expRound e square state i)
      (expRoundRounds e square state i) := by
  unfold expRoundPaid expRound expRoundRounds
  refine Costs.bind ?_ (Costs.bind_pure ?_ _)
  · split
    · exact costs_fpMul _ _
    · exact costs_pure _
  · split
    · exact costs_fpMul _ _
    · exact costs_pure _

/-- An exponentiation ends exactly if its rounds are paid for. -/
theorem costs_fpExp (a e : Fp) :
    Costs (fpExpPaid a e) (fpExp a e) (fpExpRounds a e) := by
  have low :=
    Costs.foldlM (costs_expRound e.low fun _ => true) (List.range 256)
      ((⟨1, 0⟩ : Fp), a)
  have high :=
    Costs.foldlM (costs_expRound e.high fun i => i < 124)
      (List.range 125)
      ((List.range 256).foldl (expRound e.low fun _ => true)
        ((⟨1, 0⟩ : Fp), a))
  unfold fpExpPaid fpExp fpExpRounds
  generalize List.range 256 = lowBits at low high ⊢
  generalize List.range 125 = highBits at high ⊢
  exact low.bind (high.bind_pure Prod.fst)

/-- The rounds of a product. -/
def roundsOf (product : Nat) : Nat :=
  min (product / (2 ^ 256 * 2 ^ 256)) 1000 +
    (product % (2 ^ 256 * 2 ^ 256) +
        min (product / (2 ^ 256 * 2 ^ 256)) 1000 * primeWords.value) %
      (2 ^ 256 * 2 ^ 256) / primeWords.value

theorem mulRounds_eq (a b : Fp) :
    mulRounds a b =
      roundsOf (a.value * b.value % (2 ^ 256 * (2 ^ 256 * 2 ^ 256))) := by
  rw [← DoubleWord.value_mul (by decide) a b]
  obtain ⟨wrapped, carried⟩ :=
    words_of_number (a.mul b).1 (a.mul b).2.1 (a.mul b).2.2
  rw [roundsOf, wrapped, carried, ← value_addPrime]
  rfl

/-- A product below the number spelled takes no round. -/
theorem roundsOf_eq_zero
    {product : Nat}
    (below : product < primeWords.value) :
    roundsOf product = 0 := by
  have inRange : product < 2 ^ 256 * 2 ^ 256 :=
    below.trans (DoubleWord.value_lt primeWords)
  rw [roundsOf, Nat.div_eq_of_lt inRange, Nat.mod_eq_of_lt inRange,
    Nat.zero_min, Nat.zero_mul, Nat.add_zero, Nat.mod_eq_of_lt inRange,
    Nat.div_eq_of_lt below]

end BLS12381

end Bam
