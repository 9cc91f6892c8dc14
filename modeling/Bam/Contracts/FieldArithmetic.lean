import Bam.Contracts.FieldRounds
import Bam.Lib.SmallRelations
import Mathlib.Algebra.Order.Ring.Nat
import Mathlib.Tactic.Linarith
import Mathlib.Tactic.NormNum

namespace Bam

open Metered
open SmallRelations

/-!
# Field arithmetic against the words of the prime

The number the two words of the prime spell has 445 bits.  An operation is right
where it does not have to use it: the relations between that number, the range
of two words and the prime are too large for a wrong result to come out right.
-/

namespace BLS12381

/-- The range of two words. -/
def RANGE : Nat :=
  2 ^ 256 * 2 ^ 256

/-- How the prime, the number spelled and the range of two words compare. -/
theorem primeSizes :
    1 < prime ∧ 0 < RANGE ∧ Nat.Coprime prime RANGE ∧
      2 * prime < primeWords.value ∧
      2 * primeWords.value < RANGE ∧
      1000 * primeWords.value < RANGE ∧
      RANGE / primeWords.value ≤ 2 ^ 68 ∧
      prime * prime < RANGE * 2 ^ 250 ∧
      prime * prime < 2 ^ 256 * (2 ^ 256 * 2 ^ 256) ∧
      prime < 2 ^ 256 * 2 ^ 125 := by
  decide +kernel

/-- Two short relations between the range and the number spelled. -/
theorem shortRelations :
    (prime : ℤ) ∣
        7022503174815152999908454164691031928107687204598763884685600726585605566318257705199 *
            (RANGE : ℤ) +
          373917207221642241969863984671 * (primeWords.value : ℤ) ∧
      (prime : ℤ) ∣
        -7057690410418912436907802376180215739577436666648418610836369529473691495666130259581 *
            (RANGE : ℤ) +
          194149811482107252953717615864 * (primeWords.value : ℤ) ∧
      (2 ^ 251 *
            |(373917207221642241969863984671 : ℤ)| +
          2 ^ 68 *
            |(7022503174815152999908454164691031928107687204598763884685600726585605566318257705199 : ℤ)| <
        (prime : ℤ)) ∧
      (2 ^ 251 *
            |(194149811482107252953717615864 : ℤ)| +
          2 ^ 68 *
            |(-7057690410418912436907802376180215739577436666648418610836369529473691495666130259581 : ℤ)| <
        (prime : ℤ)) := by
  decide +kernel

theorem prime_pos : 0 < prime :=
  Nat.zero_lt_of_lt primeSizes.1

theorem coprime_prime_range :
    IsCoprime (prime : ℤ) (RANGE : ℤ) :=
  Nat.isCoprime_iff_coprime.mpr primeSizes.2.2.1

/-- No multiples of the range and of the number spelled that are as small as
those a reduction takes off cancel modulo the prime. -/
theorem no_short_relation
    {x y : ℤ}
    (xSmall : |x| ≤ 2 ^ 251)
    (ySmall : |y| ≤ 2 ^ 68)
    (relation :
      (prime : ℤ) ∣ x * (RANGE : ℤ) + y * (primeWords.value : ℤ)) :
    x = 0 ∧ y = 0 := by
  obtain ⟨first, second, firstBound, secondBound⟩ := shortRelations
  exact eq_zero_of_small coprime_prime_range first second (by norm_num)
    relation xSmall ySmall firstBound secondBound

/-- What adding a multiple and wrapping twice takes off a number. -/
theorem wrapped_eq (product range words rounds : Nat) :
    (((product % range + rounds * words) % range % words : ℕ) : ℤ) =
      product -
        (((product / range + (product % range + rounds * words) / range : ℕ)
            : ℤ) * range +
          (((product % range + rounds * words) % range / words : ℕ) -
            (rounds : ℤ)) * words) := by
  have split := Nat.div_add_mod product range
  have wrapped := Nat.div_add_mod (product % range + rounds * words) range
  have taken :=
    Nat.div_add_mod ((product % range + rounds * words) % range) words
  generalize product % range = low at *
  generalize product / range = high at *
  generalize (low + rounds * words) % range = middle at *
  generalize (low + rounds * words) / range = carry at *
  generalize middle / words = quotient at *
  generalize middle % words = rest at *
  push_cast
  zify at split wrapped taken
  linear_combination taken + wrapped + split

theorem abs_sub_natCast_le
    {first second bound : Nat}
    (firstSmall : first ≤ bound)
    (secondSmall : second ≤ bound) :
    |(first : ℤ) - second| ≤ bound := by
  rw [abs_le]
  constructor <;> omega

/-- What a reduction takes off a product of field elements. -/
theorem reduced_eq
    {product : Nat}
    (small : product < prime * prime) :
    ∃ x y : ℤ,
      |x| ≤ 2 ^ 251 ∧ |y| ≤ 2 ^ 68 ∧
        (reduced product : ℤ) =
          product - (x * (RANGE : ℤ) + y * (primeWords.value : ℤ)) := by
  obtain ⟨-, positive, -, -, -, headroom, quotient, square, -, -⟩ :=
    primeSizes
  have high : product / RANGE < 2 ^ 250 :=
    Nat.div_lt_of_lt_mul (small.trans square)
  have rounds : min (product / RANGE) 1000 ≤ 1000 := min_le_right _ _
  have lowSmall : product % RANGE < RANGE := Nat.mod_lt _ positive
  have added :
      min (product / RANGE) 1000 * primeWords.value ≤
        1000 * primeWords.value :=
    Nat.mul_le_mul_right _ rounds
  have carry :
      (product % RANGE + min (product / RANGE) 1000 * primeWords.value) /
          RANGE < 2 :=
    Nat.div_lt_of_lt_mul (by omega)
  have rest :
      (product % RANGE + min (product / RANGE) 1000 * primeWords.value) %
          RANGE / primeWords.value ≤ 2 ^ 68 :=
    le_trans (Nat.div_le_div_right (Nat.mod_lt _ positive).le) quotient
  refine ⟨_, _, ?_, ?_,
    wrapped_eq product RANGE primeWords.value (min (product / RANGE) 1000)⟩
  · rw [Nat.abs_cast]
    exact_mod_cast (Nat.add_lt_add high carry).le.trans (by norm_num)
  · exact_mod_cast
      abs_sub_natCast_le rest (rounds.trans (by decide : 1000 ≤ 2 ^ 68))

/-- A reduction is right only where it takes nothing off. -/
theorem reduced_eq_mod_iff
    {product : Nat}
    (small : product < prime * prime) :
    reduced product = product % prime ↔ product < prime := by
  constructor
  · intro right
    obtain ⟨x, y, xSmall, ySmall, reduction⟩ := reduced_eq small
    have relation :
        (prime : ℤ) ∣ x * (RANGE : ℤ) + y * (primeWords.value : ℤ) := by
      have whole := Nat.div_add_mod product prime
      generalize product % prime = rest at *
      generalize product / prime = times at *
      refine ⟨times, ?_⟩
      rw [right] at reduction
      zify at whole
      linear_combination reduction - whole
    obtain ⟨rfl, rfl⟩ := no_short_relation xSmall ySmall relation
    have same : reduced product = product := by
      rw [zero_mul, zero_mul, add_zero, sub_zero] at reduction
      exact Int.natCast_inj.mp reduction
    rw [← same, right]
    exact Nat.mod_lt _ prime_pos
  · intro below
    have inWords := below.trans prime_lt_primeWords
    have inRange : product < RANGE :=
      inWords.trans (DoubleWord.value_lt primeWords)
    have noCarry : product / RANGE = 0 :=
      Nat.div_eq_of_lt inRange
    rw [Nat.mod_eq_of_lt below]
    change
      (product % RANGE + min (product / RANGE) 1000 * primeWords.value) %
        RANGE % primeWords.value = product
    rw [noCarry, Nat.mod_eq_of_lt inRange, Nat.zero_min, Nat.zero_mul,
      Nat.add_zero, Nat.mod_eq_of_lt inRange, Nat.mod_eq_of_lt inWords]

/-- A product of field elements, before its reduction. -/
theorem product_lt
    {a b : Fp}
    (aIn : InField a)
    (bIn : InField b) :
    a.value * b.value < prime * prime :=
  Nat.mul_lt_mul'' aIn bIn

theorem value_fpMul_eq
    {a b : Fp}
    (small : a.value * b.value < prime * prime) :
    (fpMul a b).value = reduced (a.value * b.value) := by
  obtain ⟨-, -, -, -, -, -, -, -, wide, -⟩ := primeSizes
  rw [value_fpMul, Nat.mod_eq_of_lt (small.trans wide)]

/-- A product below the prime is computed. -/
theorem value_fpMul_of_lt
    {a b : Fp}
    (below : a.value * b.value < prime) :
    (fpMul a b).value = a.value * b.value := by
  have small : a.value * b.value < prime * prime :=
    lt_of_lt_of_le below (Nat.le_mul_self prime)
  rw [value_fpMul_eq small, (reduced_eq_mod_iff small).mpr below,
    Nat.mod_eq_of_lt below]

theorem fpMul_eq_iff
    {a b : Fp}
    (aIn : InField a)
    (bIn : InField b) :
    (fpMul a b).value = a.value * b.value % prime ↔
      a.value * b.value < prime := by
  rw [value_fpMul_eq (product_lt aIn bIn)]
  exact reduced_eq_mod_iff (product_lt aIn bIn)

theorem twice_prime_lt_primeWords :
    2 * prime < primeWords.value :=
  primeSizes.2.2.2.1

theorem fpAdd_eq_iff
    {a b : Fp}
    (aIn : InField a)
    (bIn : InField b) :
    (fpAdd a b).value = (a.value + b.value) % prime ↔
      a.value + b.value < prime := by
  have below : a.value + b.value < primeWords.value := by
    have double := twice_prime_lt_primeWords
    unfold InField at aIn bIn
    omega
  have sum : (a.add b).value = a.value + b.value := by
    rw [DoubleWord.value_add, Nat.mod_eq_of_lt]
    exact below.trans (DoubleWord.value_lt primeWords)
  have unreduced : (fpAdd a b).value = a.value + b.value := by
    have kept : ¬ (a.add b).gte primeWords = true := by
      rw [DoubleWord.gte_iff, sum]
      exact not_le.mpr below
    rw [fpAdd, if_neg kept, sum]
  rw [unreduced]
  exact ⟨fun right => right ▸ Nat.mod_lt _ prime_pos,
    fun small => (Nat.mod_eq_of_lt small).symm⟩

theorem fpSub_eq_iff
    {a b : Fp}
    (aIn : InField a)
    (bIn : InField b) :
    (fpSub a b).value = (a.value + prime - b.value) % prime ↔
      b.value ≤ a.value := by
  unfold InField at aIn bIn
  have larger := twice_prime_lt_primeWords
  rcases Nat.lt_or_ge a.value b.value with less | more
  · have borrows : a.lt b = true := (DoubleWord.lt_iff a b).mpr less
    have sum :
        (a.add primeWords).value = a.value + primeWords.value := by
      have room : 2 * primeWords.value < RANGE := primeSizes.2.2.2.2.1
      rw [DoubleWord.value_add, Nat.mod_eq_of_lt]
      exact lt_of_lt_of_le (by omega) room.le
    have difference :
        (fpSub a b).value = a.value + primeWords.value - b.value := by
      simp only [fpSub, borrows, if_true]
      rw [DoubleWord.value_sub (by omega), sum]
    rw [difference, Nat.mod_eq_of_lt (by omega)]
    omega
  · have kept : ¬ a.lt b = true := by
      rw [DoubleWord.lt_iff]
      exact not_lt.mpr more
    have difference : (fpSub a b).value = a.value - b.value := by
      simp only [fpSub, if_neg kept]
      exact DoubleWord.value_sub more
    have wrapped :
        a.value + prime - b.value = a.value - b.value + prime := by
      omega
    rw [difference, wrapped, Nat.add_mod_right,
      Nat.mod_eq_of_lt (by omega)]
    exact iff_of_true rfl more

theorem fpNeg_eq_iff
    {a : Fp}
    (aIn : InField a) :
    (fpNeg a).value = (prime - a.value) % prime ↔ a.value = 0 := by
  unfold InField at aIn
  have larger := twice_prime_lt_primeWords
  by_cases zero : a.value = 0
  · rw [fpNeg, if_pos ((value_eq_zero_iff a).mpr zero), zero,
      Nat.sub_zero, Nat.mod_self]
    exact iff_of_true value_zero rfl
  · have difference :
        (fpNeg a).value = primeWords.value - a.value := by
      rw [fpNeg, if_neg (fun both => zero ((value_eq_zero_iff a).mp both)),
        DoubleWord.value_sub (by omega)]
    rw [difference, Nat.mod_eq_of_lt (by omega)]
    omega

/-- A power below the prime bounds the powers on the way to it. -/
theorem pow_lt_of_le
    {base lower upper bound : Nat}
    (below : base ^ upper < bound)
    (positive : 0 < lower)
    (ordered : lower ≤ upper) :
    base ^ lower < bound := by
  rcases Nat.eq_zero_or_pos base with rfl | nonzero
  · rw [Nat.zero_pow positive]
    exact Nat.zero_lt_of_lt below
  · exact lt_of_le_of_lt (Nat.pow_le_pow_right nonzero ordered) below

/-- The bit a round reads. -/
theorem bit_iff (e : BitVec 256) (i : Nat) :
    (e >>> i) &&& 1 = 1 ↔ e.toNat / 2 ^ i % 2 = 1 := by
  rw [← Nat.shiftRight_eq_div_pow, ← Nat.and_one_is_mod]
  constructor
  · intro set
    have word := congrArg BitVec.toNat set
    rw [BitVec.toNat_and, BitVec.toNat_ushiftRight] at word
    exact word
  · intro set
    apply BitVec.eq_of_toNat_eq
    rw [BitVec.toNat_and, BitVec.toNat_ushiftRight]
    exact set

/-- The rounds over a word of the exponent, as long as the power stays below the
prime; `m` is the part of the exponent already done, and `2 ^ o` the weight of
the word. -/
theorem value_expRounds
    {a : Fp}
    {e : BitVec 256}
    {square : Nat → Bool}
    {state : Fp × Fp}
    {m o rounds : Nat}
    (power : state.1.value = a.value ^ m)
    (base :
      a.value ^ 2 ^ o < prime → state.2.value = a.value ^ 2 ^ o)
    (squares : ∀ i, i + 1 < rounds → square i = true)
    (below : a.value ^ (m + 2 ^ o * (e.toNat % 2 ^ rounds)) < prime)
    (n : Nat)
    (within : n ≤ rounds) :
    (((List.range n).foldl (expRound e square) state).1.value =
        a.value ^ (m + 2 ^ o * (e.toNat % 2 ^ n))) ∧
      ((∀ i < n, square i = true) →
        a.value ^ 2 ^ (o + n) < prime →
        ((List.range n).foldl (expRound e square) state).2.value =
          a.value ^ 2 ^ (o + n)) := by
  induction n with
  | zero =>
      simp only [List.range_zero, List.foldl_nil, Nat.pow_zero, Nat.mod_one,
        Nat.mul_zero, Nat.add_zero]
      exact ⟨power, fun _ => base⟩
  | succ n inductionHypothesis =>
      obtain ⟨done, basePower⟩ :=
        inductionHypothesis (Nat.le_of_succ_le within)
      have squared : ∀ i < n, square i = true := by
        intro i before
        exact squares i (by omega)
      simp only [List.range_succ, List.foldl_append, List.foldl_cons,
        List.foldl_nil]
      generalize (List.range n).foldl (expRound e square) state = middle
        at done basePower
      constructor
      · have digit :
            e.toNat % 2 ^ (n + 1) =
              e.toNat % 2 ^ n + 2 ^ n * (e.toNat / 2 ^ n % 2) :=
          Nat.mod_pow_succ
        by_cases set : e.toNat / 2 ^ n % 2 = 1
        · rw [set, Nat.mul_one] at digit
          have exponent :
              m + 2 ^ o * (e.toNat % 2 ^ (n + 1)) =
                m + 2 ^ o * (e.toNat % 2 ^ n) + 2 ^ (o + n) := by
            rw [digit, Nat.mul_add, ← Nat.pow_add, Nat.add_assoc]
          have low :
              e.toNat % 2 ^ (n + 1) ≤ e.toNat % 2 ^ rounds := by
            rw [← Nat.mod_mod_of_dvd e.toNat (Nat.pow_dvd_pow 2 within)]
            exact Nat.mod_le _ _
          have upTo :
              m + 2 ^ o * (e.toNat % 2 ^ n) + 2 ^ (o + n) ≤
                m + 2 ^ o * (e.toNat % 2 ^ rounds) := by
            rw [← exponent]
            exact Nat.add_le_add_left (Nat.mul_le_mul_left _ low) _
          have weight : 0 < 2 ^ (o + n) := Nat.two_pow_pos _
          have baseValue : middle.2.value = a.value ^ 2 ^ (o + n) :=
            basePower squared
              (pow_lt_of_le below weight
                ((Nat.le_add_left _ _).trans upTo))
          have product :
              middle.1.value * middle.2.value =
                a.value ^
                  (m + 2 ^ o * (e.toNat % 2 ^ n) + 2 ^ (o + n)) := by
            rw [done, baseValue, ← Nat.pow_add]
          have small :
              middle.1.value * middle.2.value < prime := by
            rw [product]
            exact pow_lt_of_le below (Nat.add_pos_right _ weight) upTo
          have taken : (e >>> n) &&& 1 = 1 := (bit_iff e n).mpr set
          simp only [expRound, taken, if_true]
          rw [value_fpMul_of_lt small, product, exponent]
        · have skipped : ¬ (e >>> n) &&& 1 = 1 := fun one =>
            set ((bit_iff e n).mp one)
          have clear : e.toNat / 2 ^ n % 2 = 0 :=
            (Nat.mod_two_eq_zero_or_one _).resolve_right set
          rw [clear, Nat.mul_zero, Nat.add_zero (e.toNat % 2 ^ n)] at digit
          simp only [expRound, if_neg skipped]
          rw [done, digit]
      · intro allSquared small
        have doubled :
            2 ^ (o + (n + 1)) = 2 ^ (o + n) + 2 ^ (o + n) := by
          rw [← Nat.add_assoc, Nat.pow_succ, Nat.mul_two]
        have baseValue : middle.2.value = a.value ^ 2 ^ (o + n) :=
          basePower squared
            (pow_lt_of_le small (Nat.two_pow_pos _)
              (doubled ▸ Nat.le_add_left _ _))
        have product :
            middle.2.value * middle.2.value =
              a.value ^ 2 ^ (o + (n + 1)) := by
          rw [baseValue, ← Nat.pow_add, doubled]
        have squares := allSquared n (Nat.lt_succ_self n)
        simp only [expRound, squares, if_true, fpSquare]
        rw [value_fpMul_of_lt (product ▸ small), product]

/-- The part of the exponent that the rounds read. -/
def exponentRead (e : Fp) : Nat :=
  e.low.toNat % 2 ^ 256 + 2 ^ 256 * (e.high.toNat % 2 ^ 125)

/-- A power below the prime is computed. -/
theorem value_fpExp_of_lt
    {a e : Fp}
    (below : a.value ^ exponentRead e < prime) :
    (fpExp a e).value = a.value ^ exponentRead e := by
  unfold exponentRead at below ⊢
  have lowBelow :
      a.value ^ (0 + 2 ^ 0 * (e.low.toNat % 2 ^ 256)) < prime := by
    rw [Nat.zero_add, Nat.pow_zero, Nat.one_mul]
    rcases Nat.eq_zero_or_pos (e.low.toNat % 2 ^ 256) with zero | positive
    · rw [zero, Nat.pow_zero]
      exact primeSizes.1
    · exact pow_lt_of_le below positive (Nat.le_add_right _ _)
  have low :=
    @value_expRounds a e.low (fun _ => true) (⟨1, 0⟩, a) 0 0 256
      (by rw [value_one, Nat.pow_zero])
      (fun _ => by rw [Nat.pow_zero, Nat.pow_one])
      (fun _ _ => rfl) lowBelow 256 (Nat.le_refl _)
  rw [Nat.zero_add, Nat.pow_zero, Nat.one_mul] at low
  exact (@value_expRounds a e.high (fun i => i < 124) _
    (e.low.toNat % 2 ^ 256) 256 125 low.1
    (low.2 fun _ _ => rfl)
    (fun i before => decide_eq_true (Nat.lt_of_succ_lt_succ before))
    below 125 (Nat.le_refl _)).1

/-- All of an exponent in the field is read. -/
theorem exponentRead_of_inField
    {e : Fp}
    (eIn : InField e) :
    exponentRead e = e.value := by
  have wide : prime < 2 ^ 256 * 2 ^ 125 :=
    primeSizes.2.2.2.2.2.2.2.2.2
  have high : e.high.toNat < 2 ^ 125 := by
    rw [← DoubleWord.value_div]
    exact Nat.div_lt_of_lt_mul (eIn.trans wide)
  rw [exponentRead, Nat.mod_eq_of_lt e.low.isLt, Nat.mod_eq_of_lt high,
    DoubleWord.value, Nat.mul_comm, Nat.add_comm]

/-- A product below the prime takes no round. -/
theorem mulRounds_of_lt
    {a b : Fp}
    (below : a.value * b.value < prime) :
    mulRounds a b = 0 := by
  have inWords := below.trans prime_lt_primeWords
  have narrow :
      a.value * b.value < 2 ^ 256 * (2 ^ 256 * 2 ^ 256) :=
    inWords.trans
      ((DoubleWord.value_lt primeWords).trans
        (Nat.mul_lt_mul_of_pos_left (by decide) (by decide)))
  rw [mulRounds_eq, Nat.mod_eq_of_lt narrow]
  exact roundsOf_eq_zero inWords

/-- A multiplication ends well exactly where its product is below the prime; it
takes no round there. -/
theorem fpMulPaid_ends_iff
    {a b : Fp}
    (aIn : InField a)
    (bIn : InField b)
    (paid : Nat) :
    Ends (fpMulPaid a b) paid
        (fun r => r.value = a.value * b.value % prime) ↔
      a.value * b.value < prime := by
  rw [(costs_fpMul a b).ends_iff, fpMul_eq_iff aIn bIn]
  refine and_iff_right_of_imp fun below => ?_
  rw [mulRounds_of_lt below]
  exact Nat.zero_le paid

/-- Zero and one are multiplied without a round, to zero or one. -/
theorem fpMul_le_one
    {a b : Fp}
    (aSmall : a.value ≤ 1)
    (bSmall : b.value ≤ 1) :
    mulRounds a b = 0 ∧ (fpMul a b).value ≤ 1 := by
  have product : a.value * b.value ≤ 1 := Nat.mul_le_mul aSmall bSmall
  have below : a.value * b.value < prime :=
    Nat.lt_of_le_of_lt product primeSizes.1
  refine ⟨mulRounds_of_lt below, ?_⟩
  rw [value_fpMul_of_lt below]
  exact product

/-- A round of a power of zero or one is free. -/
theorem expRound_le_one
    (e : BitVec 256)
    (square : Nat → Bool)
    (state : Fp × Fp)
    (i : Nat)
    (small : state.1.value ≤ 1 ∧ state.2.value ≤ 1) :
    expRoundRounds e square state i = 0 ∧
      (expRound e square state i).1.value ≤ 1 ∧
      (expRound e square state i).2.value ≤ 1 := by
  obtain ⟨powerSmall, baseSmall⟩ := small
  obtain ⟨freePower, power⟩ := fpMul_le_one powerSmall baseSmall
  obtain ⟨freeSquare, squared⟩ := fpMul_le_one baseSmall baseSmall
  refine ⟨?_, ?_, ?_⟩
  · rw [expRoundRounds, freePower, freeSquare, ite_self, ite_self]
  · simp only [expRound]
    split
    · exact power
    · exact powerSmall
  · simp only [expRound]
    split
    · exact squared
    · exact baseSmall

/-- Powers of zero and one take no round. -/
theorem fpExpRounds_le_one
    {a : Fp}
    (small : a.value ≤ 1)
    (e : Fp) :
    fpExpRounds a e = 0 := by
  have start : (⟨1, 0⟩ : Fp).value ≤ 1 ∧ a.value ≤ 1 :=
    ⟨value_one.le, small⟩
  obtain ⟨low, kept⟩ :=
    @foldRounds_eq_zero _ _ _ _ _
      (expRound_le_one e.low fun _ => true) (List.range 256)
      (⟨1, 0⟩, a) start
  obtain ⟨high, -⟩ :=
    foldRounds_eq_zero (expRound_le_one e.high fun i => i < 124)
      (List.range 125) kept
  rw [fpExpRounds, low, high]

/-- A power below the prime ends well exactly if its rounds are paid for. -/
theorem fpExpPaid_ends_iff
    {a e : Fp}
    (eIn : InField e)
    (below : a.value ^ e.value < prime)
    (paid : Nat) :
    Ends (fpExpPaid a e) paid
        (fun r => r.value = a.value ^ e.value % prime) ↔
      fpExpRounds a e ≤ paid := by
  rw [(costs_fpExp a e).ends_iff]
  refine and_iff_left ?_
  rw [Nat.mod_eq_of_lt below]
  rw [← exponentRead_of_inField eIn] at below ⊢
  exact value_fpExp_of_lt below

/-- A power of zero or one ends well, whatever is paid for. -/
theorem fpExpPaid_of_le_one
    {a e : Fp}
    (eIn : InField e)
    (small : a.value ≤ 1)
    (paid : Nat) :
    Ends (fpExpPaid a e) paid
      (fun r => r.value = a.value ^ e.value % prime) := by
  have one : a.value ^ e.value ≤ 1 := by
    rw [← Nat.one_pow e.value]
    exact Nat.pow_le_pow_left small e.value
  have below : a.value ^ e.value < prime :=
    Nat.lt_of_le_of_lt one primeSizes.1
  refine (fpExpPaid_ends_iff eIn below paid).mpr ?_
  rw [fpExpRounds_le_one small]
  exact Nat.zero_le paid

/-- The inverse of one is computed; every other inverse is a power with an
exponent that is not the prime less two. -/
theorem fpInvPaid_of_one
    {a : Fp}
    (one : a.value = 1)
    (paid : Nat) :
    Ends (fpInvPaid a) paid
      (fun result => ∃ r, result = .ok r ∧
        r.value * a.value % prime = 1) := by
  have nonzero : ¬ (a.low = 0 ∧ a.high = 0) := by
    rw [value_eq_zero_iff, one]
    exact Nat.one_ne_zero
  have power :
      (fpExp a ⟨P_LOW - 2, P_HIGH⟩).value = 1 := by
    rw [value_fpExp_of_lt] <;> rw [one, Nat.one_pow]
    exact primeSizes.1
  rw [fpInvPaid, if_neg nonzero]
  refine ((costs_fpExp a _).bind_pure Except.ok).ends_iff.mpr
    ⟨?_, _, rfl, ?_⟩
  · rw [fpExpRounds_le_one one.le]
    exact Nat.zero_le paid
  · rw [power, one]
    exact Nat.mod_eq_of_lt primeSizes.1

theorem fpInvPaid_of_zero
    {a : Fp}
    (zero : a.value = 0)
    (paid : Nat) :
    Ends (fpInvPaid a) paid
      (fun result => result = .error .divisionByZero) := by
  rw [fpInvPaid, if_pos ((value_eq_zero_iff a).mpr zero)]
  exact (costs_pure _).ends_iff.mpr ⟨Nat.zero_le paid, rfl⟩

/-- Exactly when sums, differences, negations and products are those of the
field, however many rounds of reduction the gas pays for; a power below the
prime is one exactly if its rounds are paid for, and powers of zero and one have
none; the inverse of one is computed, and zero has none. -/
theorem fieldArithmetic_iff
    {a b e : Fp}
    (aIn : InField a)
    (bIn : InField b)
    (eIn : InField e)
    (paid : Nat) :
    ((fpAdd a b).value = (a.value + b.value) % prime ↔
        a.value + b.value < prime) ∧
      ((fpSub a b).value = (a.value + prime - b.value) % prime ↔
        b.value ≤ a.value) ∧
      ((fpNeg a).value = (prime - a.value) % prime ↔ a.value = 0) ∧
      (Ends (fpMulPaid a b) paid
          (fun r => r.value = a.value * b.value % prime) ↔
        a.value * b.value < prime) ∧
      (a.value ^ e.value < prime →
        (Ends (fpExpPaid a e) paid
            (fun r => r.value = a.value ^ e.value % prime) ↔
          fpExpRounds a e ≤ paid)) ∧
      (a.value ≤ 1 →
        Ends (fpExpPaid a e) paid
          (fun r => r.value = a.value ^ e.value % prime)) ∧
      (a.value = 1 →
        Ends (fpInvPaid a) paid
          (fun result => ∃ r, result = .ok r ∧
            r.value * a.value % prime = 1)) ∧
      (a.value = 0 →
        Ends (fpInvPaid a) paid
          (fun result => result = .error .divisionByZero)) :=
  ⟨fpAdd_eq_iff aIn bIn, fpSub_eq_iff aIn bIn, fpNeg_eq_iff aIn,
    fpMulPaid_ends_iff aIn bIn paid,
    fun below => fpExpPaid_ends_iff eIn below paid,
    fun small => fpExpPaid_of_le_one eIn small paid,
    fun one => fpInvPaid_of_one one paid,
    fun zero => fpInvPaid_of_zero zero paid⟩

theorem lowRounds_le (a e : Fp) :
    foldRounds (expRound e.low fun _ => true)
        (expRoundRounds e.low fun _ => true) (List.range 256) (⟨1, 0⟩, a) ≤
      fpExpRounds a e := by
  unfold fpExpRounds
  exact Nat.le_add_right _ _

/-- The ninth square of three, made on the way to its first power, takes more
rounds than any gas pays for. -/
theorem fpExpRounds_three :
    2 ^ 64 < fpExpRounds ⟨3, 0⟩ ⟨1, 0⟩ := by
  have bits :
      List.range 256 = List.range 8 ++ 8 :: List.range' 9 247 := by
    decide +kernel
  have base :=
    (@value_expRounds ⟨3, 0⟩ 1 (fun _ => true) (⟨1, 0⟩, ⟨3, 0⟩) 0 0 7
      value_one (fun _ => rfl) (fun _ _ => rfl) (by decide +kernel) 7
      (Nat.le_refl _)).2 (fun _ _ => rfl) (by decide +kernel)
  have squared :
      ((List.range 8).foldl (expRound 1 fun _ => true)
        (⟨1, 0⟩, ⟨3, 0⟩)).2.value = 3 ^ 256 := by
    rw [List.range_succ, List.foldl_append]
    generalize (List.range 7).foldl (expRound 1 fun _ => true)
      (⟨1, 0⟩, ⟨3, 0⟩) = state at base ⊢
    change (fpMul state.2 state.2).value = _
    rw [value_fpMul, base]
    decide +kernel
  have included :=
    @rounds_le_foldRounds Nat (Fp × Fp) (expRound 1 fun _ => true)
      (expRoundRounds 1 fun _ => true) (List.range 8) (List.range' 9 247) 8
      (⟨1, 0⟩, ⟨3, 0⟩)
  rw [← bits] at included
  generalize (List.range 8).foldl (expRound 1 fun _ => true)
    (⟨1, 0⟩, ⟨3, 0⟩) = state at squared included
  have dear : 2 ^ 64 < mulRounds state.2 state.2 := by
    rw [mulRounds_eq, squared]
    decide +kernel
  have whole := lowRounds_le ⟨3, 0⟩ ⟨1, 0⟩
  dsimp only at whole
  have round :
      mulRounds state.2 state.2 ≤
        expRoundRounds 1 (fun _ => true) state 8 :=
    Nat.le_add_left _ _
  exact dear.trans_le (round.trans (included.trans whole))

/-- Two and three, and powers of one and three. -/
theorem fieldArithmetic_iff_three :
    (fpAdd ⟨2, 0⟩ ⟨3, 0⟩).value = 5 ∧
      Ends (fpMulPaid ⟨2, 0⟩ ⟨3, 0⟩) 0 (fun r => r.value = 6 % prime) ∧
      Ends (fpExpPaid ⟨1, 0⟩ ⟨3, 0⟩) 0 (fun r => r.value = 1 % prime) ∧
      ¬ Ends (fpExpPaid ⟨3, 0⟩ ⟨1, 0⟩) (2 ^ 64)
        (fun r => r.value = 3 ^ 1 % prime) := by
  have one : (⟨1, 0⟩ : Fp).value = 1 := rfl
  have two : (⟨2, 0⟩ : Fp).value = 2 := rfl
  have three : (⟨3, 0⟩ : Fp).value = 3 := rfl
  have small : 6 < prime := by
    decide +kernel
  have oneIn : InField ⟨1, 0⟩ := primeSizes.1
  have twoIn : InField ⟨2, 0⟩ := lt_trans (two ▸ by norm_num) small
  have threeIn : InField ⟨3, 0⟩ := lt_trans (three ▸ by norm_num) small
  obtain ⟨sum, -, -, product, -⟩ :=
    fieldArithmetic_iff twoIn threeIn oneIn 0
  obtain ⟨-, -, -, -, -, power, -⟩ :=
    fieldArithmetic_iff oneIn twoIn threeIn 0
  obtain ⟨-, -, -, -, paid, -⟩ :=
    fieldArithmetic_iff threeIn twoIn oneIn (2 ^ 64)
  rw [two, three] at sum product
  rw [one, three] at power paid
  refine ⟨?_, product.mpr small, ?_, fun ends => ?_⟩
  · exact (sum.mpr (lt_trans (by norm_num) small)).trans
      (Nat.mod_eq_of_lt (lt_trans (by norm_num) small))
  · exact power (Nat.le_refl 1)
  · exact absurd ((paid (lt_trans (by norm_num) small)).mp ends)
      (Nat.not_le.mpr fpExpRounds_three)

/-- The negation of one is not the prime less one. -/
theorem fpNeg_one_wrong :
    ¬ ∀ a : Fp, InField a →
        (fpNeg a).value = (prime - a.value) % prime := by
  intro always
  have inField : InField ⟨1, 0⟩ := primeSizes.1
  have zero := (fpNeg_eq_iff inField).mp (always _ inField)
  rw [value_one] at zero
  exact Nat.one_ne_zero zero

end BLS12381

end Bam
