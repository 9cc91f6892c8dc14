import Mathlib.Algebra.Order.Ring.Abs
import Mathlib.Data.Int.GCD
import Mathlib.RingTheory.Coprime.Lemmas
import Mathlib.Tactic.LinearCombination

namespace SmallRelations

/-!
# Small linear relations modulo an integer

The relations `x * c + y * d` divisible by `p` form a plane lattice.  Two
independent ones with small coefficients leave no room for a smaller third: it
is proportional to each of them, so it is zero.
-/

variable {p c d : ℤ}

/-- Two relations with small coefficients are proportional. -/
theorem proportional_of_small
    (coprime : IsCoprime p c)
    {a b x y bound : ℤ}
    (known : p ∣ a * c + b * d)
    (relation : p ∣ x * c + y * d)
    (small : |x| * |b| + |y| * |a| ≤ bound)
    (below : bound < p) :
    x * b = y * a := by
  have cross : p ∣ x * b - y * a := by
    apply coprime.dvd_of_dvd_mul_right
    have both : p ∣ b * (x * c + y * d) - y * (a * c + b * d) :=
      dvd_sub (relation.mul_left b) (known.mul_left y)
    have same :
        b * (x * c + y * d) - y * (a * c + b * d) =
          (x * b - y * a) * c := by
      ring
    exact same ▸ both
  have size : |x * b - y * a| < p := by
    calc |x * b - y * a|
        ≤ |x * b| + |y * a| := abs_sub _ _
      _ = |x| * |b| + |y| * |a| := by rw [abs_mul, abs_mul]
      _ < p := lt_of_le_of_lt small below
  exact sub_eq_zero.mp (Int.eq_zero_of_abs_lt_dvd cross size)

/-- Next to two independent relations there is no smaller one. -/
theorem eq_zero_of_small
    (coprime : IsCoprime p c)
    {a₁ b₁ a₂ b₂ x y X Y : ℤ}
    (first : p ∣ a₁ * c + b₁ * d)
    (second : p ∣ a₂ * c + b₂ * d)
    (independent : a₁ * b₂ - a₂ * b₁ ≠ 0)
    (relation : p ∣ x * c + y * d)
    (xSmall : |x| ≤ X)
    (ySmall : |y| ≤ Y)
    (firstBound : X * |b₁| + Y * |a₁| < p)
    (secondBound : X * |b₂| + Y * |a₂| < p) :
    x = 0 ∧ y = 0 := by
  have along :
      ∀ a b : ℤ, |x| * |b| + |y| * |a| ≤ X * |b| + Y * |a| := by
    intro a b
    exact add_le_add
      (mul_le_mul_of_nonneg_right xSmall (abs_nonneg b))
      (mul_le_mul_of_nonneg_right ySmall (abs_nonneg a))
  have one : x * b₁ = y * a₁ :=
    proportional_of_small coprime first relation (along a₁ b₁) firstBound
  have two : x * b₂ = y * a₂ :=
    proportional_of_small coprime second relation (along a₂ b₂) secondBound
  have xZero : x * (a₁ * b₂ - a₂ * b₁) = 0 := by
    linear_combination a₁ * two - a₂ * one
  have yZero : y * (a₁ * b₂ - a₂ * b₁) = 0 := by
    linear_combination b₁ * two - b₂ * one
  exact ⟨(mul_eq_zero.mp xZero).resolve_right independent,
    (mul_eq_zero.mp yZero).resolve_right independent⟩

end SmallRelations
