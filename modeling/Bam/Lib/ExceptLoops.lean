import Mathlib.Data.List.Forall2

namespace ExceptLoops

/-!
# Loops that may fail

A `mapM` of checks fails at the first item that fails.  Two such loops agree
when their rounds agree, whatever their errors are.
-/

variable {α β γ ε δ : Type*}

@[simp] theorem ok_bind
    {α β ε : Type}
    (value : α)
    (next : α → Except ε β) :
    (Except.ok value >>= next) = next value :=
  rfl

@[simp] theorem error_bind
    {α β ε : Type}
    (error : ε)
    (next : α → Except ε β) :
    (Except.error error >>= next) = .error error :=
  rfl

/-- The two parts of a computation that succeeds. -/
theorem exists_of_bind_eq_ok
    {α β ε : Type}
    {first : Except ε α}
    {next : α → Except ε β}
    {value : β}
    (returned : first >>= next = .ok value) :
    ∃ middle, first = .ok middle ∧ next middle = .ok value := by
  cases first with
  | ok middle =>
      exact ⟨middle, rfl, returned⟩
  | error error =>
      cases returned

theorem ok_of_toOption
    {result : Except ε α}
    {value : α}
    (taken : result.toOption = some value) :
    result = .ok value := by
  cases result with
  | ok other =>
      cases taken
      rfl
  | error error =>
      cases taken

/-- A loop returns exactly the images of its items. -/
theorem mapM_eq_ok_iff
    {round : α → Except ε β}
    {items : List α}
    {images : List β} :
    items.mapM round = .ok images ↔
      List.Forall₂ (fun item image => round item = .ok image) items
        images := by
  induction items generalizing images with
  | nil =>
      rw [List.mapM_nil]
      cases images with
      | nil =>
          exact ⟨fun _ => .nil, fun _ => rfl⟩
      | cons image rest =>
          constructor
          · intro same
            cases same
          · intro related
            cases related
  | cons item items inductionHypothesis =>
      rw [List.mapM_cons]
      cases isFirst : round item with
      | error error =>
          constructor
          · intro same
            cases same
          · intro related
            cases related with
            | cons first rest =>
                rw [isFirst] at first
                cases first
      | ok first =>
          cases isRest : items.mapM round with
          | error error =>
              constructor
              · intro same
                cases same
              · intro related
                cases related with
                | cons isImage rest =>
                    rw [inductionHypothesis.mpr rest] at isRest
                    cases isRest
          | ok rest =>
              constructor
              · intro same
                cases same
                exact .cons isFirst (inductionHypothesis.mp isRest)
              · intro related
                cases related with
                | cons isImage others =>
                    rw [isFirst] at isImage
                    cases isImage
                    rw [inductionHypothesis.mpr others] at isRest
                    cases isRest
                    rfl

/-- Two computations accept the same inputs, and one's value is the translation
of the other's. -/
def Agree
    (translate : β → γ)
    (first : Except ε γ)
    (second : Except δ β) : Prop :=
  first.toOption = second.toOption.map translate

theorem agree_ok
    (translate : β → γ)
    (value : β) :
    Agree translate (.ok (translate value) : Except ε γ)
      (.ok value : Except δ β) :=
  rfl

theorem agree_error
    (translate : β → γ)
    (first : ε)
    (second : δ) :
    Agree translate (.error first : Except ε γ)
      (.error second : Except δ β) :=
  rfl

/-- Loops agree when their rounds do. -/
theorem agree_mapM
    {translate : β → γ}
    {first : α → Except ε γ}
    {second : α → Except δ β}
    {items : List α}
    (rounds : ∀ item ∈ items, Agree translate (first item) (second item)) :
    Agree (List.map translate) (items.mapM first)
      (items.mapM second) := by
  induction items with
  | nil =>
      rw [List.mapM_nil, List.mapM_nil]
      exact agree_ok (List.map translate) []
  | cons item items inductionHypothesis =>
      have here := rounds item List.mem_cons_self
      have there := inductionHypothesis fun other member =>
        rounds other (List.mem_cons_of_mem _ member)
      rw [List.mapM_cons, List.mapM_cons]
      cases isFirst : first item with
      | error error =>
          cases isSecond : second item with
          | error other =>
              exact agree_error _ error other
          | ok image =>
              rw [isFirst, isSecond] at here
              cases here
      | ok value =>
          cases isSecond : second item with
          | error other =>
              rw [isFirst, isSecond] at here
              cases here
          | ok image =>
              rw [isFirst, isSecond] at here
              cases here
              cases isRest : items.mapM first with
              | error error =>
                  cases isOther : items.mapM second with
                  | error other =>
                      exact agree_error _ error other
                  | ok images =>
                      rw [isRest, isOther] at there
                      cases there
              | ok values =>
                  cases isOther : items.mapM second with
                  | error other =>
                      rw [isRest, isOther] at there
                      cases there
                  | ok images =>
                      rw [isRest, isOther] at there
                      cases there
                      exact agree_ok _ (image :: images)

/-- A loop that returns keeps what each of its rounds keeps. -/
theorem foldlM_invariant
    {α β ε : Type}
    {round : β → α → Except ε β}
    {holds : β → Prop}
    (kept :
      ∀ {before item after},
        holds before → round before item = .ok after → holds after)
    {items : List α}
    {start last : β}
    (initially : holds start)
    (returned : items.foldlM round start = .ok last) :
    holds last := by
  induction items generalizing start with
  | nil =>
      cases returned
      exact initially
  | cons item rest inductionHypothesis =>
      rw [List.foldlM_cons] at returned
      cases first : round start item with
      | error error =>
          rw [first] at returned
          cases returned
      | ok next =>
          rw [first, ok_bind] at returned
          exact inductionHypothesis (kept initially first) returned

end ExceptLoops
