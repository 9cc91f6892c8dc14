import Mathlib.Data.String.Basic
import Mathlib.Data.String.Defs
import Mathlib.Algebra.Order.Group.Nat
import Mathlib.Tactic.Ring

namespace DigitText

/-!
# Decimal texts of one width

Texts of decimal digits that are equally long compare as the numbers they
spell.  Padding a number with leading zeros brings it to a width and leaves
what it spells.
-/

/-- A text of decimal digits. -/
def AllDigits (text : List Char) : Prop :=
  ∀ character ∈ text, character.isDigit = true

/-- The number a text of digits spells. -/
def value (text : List Char) : Nat :=
  Nat.ofDigitChars 10 text 0

/-- The value of a digit. -/
def digit (character : Char) : Nat :=
  character.toNat - '0'.toNat

theorem digit_lt
    {character : Char}
    (isDigit : character.isDigit = true) :
    digit character < 10 := by
  have bounds := Char.isDigit_iff_toNat.mp isDigit
  have zero : '0'.toNat = 48 := rfl
  have nine : '9'.toNat = 57 := rfl
  unfold digit
  omega

/-- Digits compare as their values. -/
theorem digit_lt_iff
    {first second : Char}
    (firstDigit : first.isDigit = true)
    (secondDigit : second.isDigit = true) :
    digit first < digit second ↔ first < second := by
  have firstBounds := Char.isDigit_iff_toNat.mp firstDigit
  have secondBounds := Char.isDigit_iff_toNat.mp secondDigit
  have order : first < second ↔ first.toNat < second.toNat := Iff.rfl
  rw [order]
  unfold digit
  omega

theorem AllDigits.tail
    {character : Char}
    {text : List Char}
    (digits : AllDigits (character :: text)) :
    AllDigits text :=
  fun other member => digits other (List.mem_cons_of_mem character member)

@[simp] theorem value_nil : value [] = 0 := rfl

theorem value_cons
    (character : Char)
    (text : List Char) :
    value (character :: text) =
      digit character * 10 ^ text.length + value text := by
  rw [value, Nat.ofDigitChars_cons, Nat.ofDigitChars_eq_ofDigitChars_zero,
    value, digit]
  ring

/-- A text of digits spells a number below the power of its width. -/
theorem value_lt
    {text : List Char}
    (digits : AllDigits text) :
    value text < 10 ^ text.length := by
  induction text with
  | nil => exact Nat.one_pos
  | cons character rest inductionHypothesis =>
      have small := digit_lt (digits character List.mem_cons_self)
      have restSmall := inductionHypothesis digits.tail
      have scaled :
          digit character * 10 ^ rest.length ≤ 9 * 10 ^ rest.length :=
        Nat.mul_le_mul_right _ (Nat.le_of_lt_succ small)
      rw [value_cons, List.length_cons, Nat.pow_succ]
      omega

/-- Equally long texts of digits compare as the numbers they spell. -/
theorem lt_iff_value_lt
    {first second : List Char}
    (firstDigits : AllDigits first)
    (secondDigits : AllDigits second)
    (sameWidth : first.length = second.length) :
    first < second ↔ value first < value second := by
  induction first generalizing second with
  | nil =>
      rw [List.eq_nil_of_length_eq_zero sameWidth.symm]
      exact iff_of_false (lt_irrefl _) (lt_irrefl _)
  | cons head rest inductionHypothesis =>
      cases second with
      | nil => cases sameWidth
      | cons otherHead otherRest =>
          have restWidth : rest.length = otherRest.length :=
            Nat.succ.inj sameWidth
          have headDigit := firstDigits head List.mem_cons_self
          have otherDigit := secondDigits otherHead List.mem_cons_self
          have restSmall := value_lt firstDigits.tail
          have otherSmall := value_lt secondDigits.tail
          rw [value_cons, value_cons, restWidth]
          rw [restWidth] at restSmall
          rcases lt_trichotomy head otherHead with before | same | after
          · have smaller :=
              (digit_lt_iff headDigit otherDigit).mpr before
            have scaled :
                (digit head + 1) * 10 ^ otherRest.length ≤
                  digit otherHead * 10 ^ otherRest.length :=
              Nat.mul_le_mul_right _ smaller
            rw [Nat.add_mul, Nat.one_mul] at scaled
            exact iff_of_true (List.cons_lt_cons_iff.mpr (.inl before))
              (by omega)
          · subst same
            rw [List.cons_lt_cons_iff,
              inductionHypothesis firstDigits.tail secondDigits.tail
                restWidth]
            simp
          · have larger :=
              (digit_lt_iff otherDigit headDigit).mpr after
            have scaled :
                (digit otherHead + 1) * 10 ^ otherRest.length ≤
                  digit head * 10 ^ otherRest.length :=
              Nat.mul_le_mul_right _ larger
            rw [Nat.add_mul, Nat.one_mul] at scaled
            have notBefore : ¬ head :: rest < otherHead :: otherRest := by
              rw [List.cons_lt_cons_iff]
              rintro (before | ⟨same, _⟩)
              · exact lt_asymm before after
              · exact absurd same (ne_of_gt after)
            exact iff_of_false notBefore (by omega)

section Padded

variable (width number : Nat)

/-- The text of a number, with leading zeros up to a width. -/
def padded : List Char :=
  List.leftpad width '0' (Nat.toDigits 10 number)

theorem padded_digits : AllDigits (padded width number) := by
  intro character member
  rcases List.mem_append.mp member with isZero | isDigit
  · rw [(List.mem_replicate.mp isZero).2]
    rfl
  · exact Nat.isDigit_of_mem_toDigits (by decide) (by decide) isDigit

theorem value_padded : value (padded width number) = number := by
  rw [value, padded, List.leftpad, Nat.ofDigitChars_append,
    Nat.ofDigitChars_replicate_zero, Nat.mul_zero,
    Nat.ofDigitChars_ten_toDigits]

variable {width number}

theorem length_padded
    (positive : 0 < width)
    (fits : number < 10 ^ width) :
    (padded width number).length = width := by
  have short :=
    (Nat.length_toDigits_le_iff (by decide) positive).mpr fits
  rw [padded, List.length_leftpad, max_eq_left short]

/-- Padded numbers that fit their width compare as texts as they do as
numbers. -/
theorem padded_lt_iff
    {other : Nat}
    (positive : 0 < width)
    (fits : number < 10 ^ width)
    (otherFits : other < 10 ^ width) :
    padded width number < padded width other ↔ number < other := by
  have sameWidth : (padded width number).length =
      (padded width other).length := by
    rw [length_padded positive fits, length_padded positive otherFits]
  rw [lt_iff_value_lt (padded_digits width number)
    (padded_digits width other) sameWidth, value_padded, value_padded]

end Padded

end DigitText
