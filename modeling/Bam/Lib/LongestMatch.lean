import Mathlib.Data.List.Basic

namespace LongestMatch

/-!
# Longest-match tokenisation

A text is cut from left to right.  Where a token of one of the given widths
starts, the first such width is cut off, and one item elsewhere.
-/

variable {α : Type*}

/-- The width that is cut off the front. -/
def frontWidth
    (isToken : List α → Bool) :
    List Nat → List α → Nat
  | [], _ => 1
  | width :: widths, text =>
      if width ≤ text.length ∧ isToken (text.take width) then width
      else frontWidth isToken widths text

/-- The pieces of a text. -/
def split
    (isToken : List α → Bool)
    (widths : List Nat) : List α → List (List α)
  | [] => []
  | item :: rest =>
      (item :: rest).take (frontWidth isToken widths (item :: rest)) ::
        split isToken widths
          (rest.drop (frontWidth isToken widths (item :: rest) - 1))
termination_by text => text.length
decreasing_by
  simp only [List.length_drop, List.length_cons]
  omega

variable {isToken : List α → Bool} {widths : List Nat}

@[simp] theorem split_nil :
    split isToken widths [] = [] := by
  rw [split]

/-- A text that is not empty loses its front. -/
theorem split_of_ne_nil
    {text : List α}
    (filled : text ≠ [])
    (positive : 0 < frontWidth isToken widths text) :
    split isToken widths text =
      text.take (frontWidth isToken widths text) ::
        split isToken widths
          (text.drop (frontWidth isToken widths text)) := by
  cases text with
  | nil =>
      exact absurd rfl filled
  | cons item rest =>
      obtain ⟨width, isWidth⟩ :=
        Nat.exists_eq_succ_of_ne_zero (Nat.ne_of_gt positive)
      rw [split, isWidth, Nat.succ_eq_add_one, Nat.add_sub_cancel,
        List.drop_succ_cons]

/-- A front is a token, or no token starts here and one item is cut off. -/
theorem frontWidth_spec
    (text : List α) :
    (frontWidth isToken widths text ∈ widths ∧
        frontWidth isToken widths text ≤ text.length ∧
        isToken (text.take (frontWidth isToken widths text)) = true) ∨
      (frontWidth isToken widths text = 1 ∧
        ∀ width ∈ widths, width ≤ text.length →
          isToken (text.take width) = false) := by
  induction widths with
  | nil =>
      refine .inr ⟨rfl, ?_⟩
      intro width member
      cases member
  | cons width widths inductionHypothesis =>
      unfold frontWidth
      split
      · rename_i starts
        exact .inl ⟨List.mem_cons_self, starts⟩
      · rename_i none
        rcases inductionHypothesis with
          ⟨member, inside, isFront⟩ | ⟨single, others⟩
        · exact .inl ⟨List.mem_cons_of_mem _ member, inside, isFront⟩
        · refine .inr ⟨single, ?_⟩
          intro other member inside
          rcases List.mem_cons.mp member with rfl | later
          · by_contra isFront
            exact none ⟨inside, by simpa using isFront⟩
          · exact others other later inside

/-- Positive widths cut something off. -/
theorem frontWidth_pos
    (positive : ∀ width ∈ widths, 0 < width)
    (text : List α) :
    0 < frontWidth isToken widths text := by
  rcases frontWidth_spec text with ⟨member, _⟩ | ⟨single, _⟩
  · exact positive _ member
  · rw [single]
    exact Nat.one_pos

/-- The pieces of a text are the text. -/
theorem flatten_split
    (positive : ∀ width ∈ widths, 0 < width)
    (text : List α) :
    (split isToken widths text).flatten = text := by
  induction text using split.induct isToken widths with
  | case1 =>
      simp
  | case2 item rest inductionHypothesis =>
      obtain ⟨width, isWidth⟩ :=
        Nat.exists_eq_succ_of_ne_zero
          (Nat.ne_of_gt (frontWidth_pos positive (item :: rest)))
      rw [split, List.flatten_cons, inductionHypothesis, isWidth,
        Nat.succ_eq_add_one, Nat.add_sub_cancel, List.take_succ_cons,
        List.cons_append, List.take_append_drop]

/-- A piece is a token or one item. -/
theorem piece_of_mem_split
    {text piece : List α}
    (member : piece ∈ split isToken widths text) :
    (piece.length ∈ widths ∧ isToken piece = true) ∨
      piece.length = 1 := by
  induction text using split.induct isToken widths with
  | case1 =>
      simp at member
  | case2 item rest inductionHypothesis =>
      rw [split] at member
      rcases List.mem_cons.mp member with rfl | later
      · rcases frontWidth_spec (item :: rest) with
          ⟨inWidths, inside, isFront⟩ | ⟨single, _⟩
        · refine .inl ⟨?_, isFront⟩
          rw [List.length_take, Nat.min_eq_left inside]
          exact inWidths
        · right
          rw [single]
          rfl
      · exact inductionHypothesis later

/-- There are no more pieces than items. -/
theorem length_split_le
    (text : List α) :
    (split isToken widths text).length ≤ text.length := by
  induction text using split.induct isToken widths with
  | case1 =>
      exact Nat.le_of_eq (congrArg List.length split_nil)
  | case2 item rest inductionHypothesis =>
      rw [List.length_drop] at inductionHypothesis
      rw [split, List.length_cons, List.length_cons]
      omega

end LongestMatch
