import Bam.Lib.Attempt
import Mathlib.Algebra.BigOperators.Group.List.Basic

namespace Attempt

/-!
# Accounting for loops

What a loop adds to a measure of its state is the sum of what its iterations
add.  Where every iteration adds at least its due, the whole adds exactly what
is due if and only if every iteration does.
-/

universe u v w z y

variable {State : Type u} {Error : Type v} {Value Other : Type w}
variable {Item : Type z} {Measure : Type y}

/-- An iteration of a loop: its item, and the accumulator and the state it
finds. -/
structure Iteration
    (Value : Type w)
    (Item : Type z)
    (State : Type u) where
  value : Value
  item : Item
  before : State

/-- The iterations a loop begins. -/
def iterations
    (body : Value → Item → Attempt State Error Value) :
    Value → List Item → State → List (Iteration Value Item State)
  | _, [], _ => []
  | value, item :: rest, before =>
      ⟨value, item, before⟩ ::
        match body value item before with
        | (_, .error _) => []
        | (after, .ok next) => iterations body next rest after

section Invariant

variable {body : Value → Item → Attempt State Error Value}

/-- A loop that returns has returned from every iteration. -/
theorem iterations_returned
    {items : List Item}
    {value last : Value}
    {before after : State}
    (returned : fold body value items before = (after, .ok last)) :
    ∀ iteration ∈ iterations body value items before,
      ∃ between next,
        body iteration.value iteration.item iteration.before =
          (between, .ok next) := by
  induction items generalizing value before with
  | nil =>
      intro iteration member
      cases member
  | cons item rest inductionHypothesis =>
      intro iteration member
      rw [iterations] at member
      rw [fold, andThen] at returned
      cases executed : body value item before with
      | mk between outcome =>
          rw [executed] at member returned
          cases outcome with
          | error error =>
              cases returned
          | ok next =>
              rcases List.mem_cons.mp member with isFirst | isLater
              · subst isFirst
                exact ⟨between, next, executed⟩
              · exact inductionHypothesis returned iteration isLater

/-- A loop begins its iterations with its items, in their order. -/
theorem items_iterations
    (body : Value → Item → Attempt State Error Value)
    (value : Value)
    (items : List Item)
    (before : State) :
    (iterations body value items before).map Iteration.item <+:
      items := by
  induction items generalizing value before with
  | nil => exact List.prefix_rfl
  | cons item rest inductionHypothesis =>
      rw [iterations, List.map_cons, List.prefix_cons_inj]
      cases body value item before with
      | mk after outcome =>
          cases outcome with
          | error error => exact List.nil_prefix
          | ok next => exact inductionHypothesis next after

end Invariant

section Gains

variable [AddMonoid Measure] (measure : State → Measure)

/-- An attempt adds `gain` to a measure of its state, wherever it is cut. -/
def Gains
    (attempt : Attempt State Error Value)
    (gain : State → Measure) : Prop :=
  ∀ before, measure (attempt before).1 = measure before + gain before

variable {measure}

/-- An attempt leaves a measure of its state as it was, wherever it is cut. -/
abbrev Keeps
    (measure : State → Measure)
    (attempt : Attempt State Error Value) : Prop :=
  Gains measure attempt fun _ => 0

theorem keeps_done
    (value : Value) :
    Keeps measure (done value : Attempt State Error Value) :=
  fun _ => (add_zero _).symm

theorem keeps_fail
    (error : Error) :
    Keeps measure (fail error : Attempt State Error Value) :=
  fun _ => (add_zero _).symm

theorem keeps_ofOption
    (error : Error)
    (answer : Option Value) :
    Keeps measure (ofOption error answer) := by
  cases answer with
  | none => exact keeps_fail error
  | some value => exact keeps_done value

/-- What follows a first attempt adds to what it added. -/
theorem Gains.andThen
    {first : Attempt State Error Value}
    {next : Value → Attempt State Error Other}
    {firstGain : State → Measure}
    {nextGain : Value → State → Measure}
    (gainsFirst : Gains measure first firstGain)
    (gainsNext : ∀ value, Gains measure (next value) (nextGain value)) :
    Gains measure (first.andThen next) fun before =>
      firstGain before +
        match first before with
        | (_, .error _) => 0
        | (after, .ok value) => nextGain value after := by
  intro before
  have gained := gainsFirst before
  unfold Attempt.andThen
  dsimp only
  cases executed : first before with
  | mk after outcome =>
      rw [executed] at gained
      cases outcome with
      | error error =>
          dsimp only
          rw [add_zero]
          exact gained
      | ok value =>
          dsimp only at gained ⊢
          rw [gainsNext value after, gained, add_assoc]

/-- What follows and keeps the measure adds nothing. -/
theorem Gains.andThen_keeps
    {first : Attempt State Error Value}
    {next : Value → Attempt State Error Other}
    {gain : State → Measure}
    (gainsFirst : Gains measure first gain)
    (keepsNext : ∀ value, Keeps measure (next value)) :
    Gains measure (first.andThen next) gain := by
  intro before
  rw [gainsFirst.andThen keepsNext before]
  dsimp only
  cases first before with
  | mk after outcome =>
      cases outcome with
      | error error => exact congrArg _ (add_zero _)
      | ok value => exact congrArg _ (add_zero _)

/-- A loop adds the sum of what its iterations add. -/
theorem gains_fold
    {body : Value → Item → Attempt State Error Value}
    {gain : Value → Item → State → Measure}
    (each : ∀ value item, Gains measure (body value item) (gain value item))
    (value : Value)
    (items : List Item) :
    Gains measure (fold body value items) fun before =>
      ((iterations body value items before).map fun iteration =>
        gain iteration.value iteration.item iteration.before).sum := by
  induction items generalizing value with
  | nil =>
      intro before
      exact (add_zero _).symm
  | cons item rest inductionHypothesis =>
      intro before
      have gained :=
        (each value item).andThen
          (fun next => inductionHypothesis next) before
      rw [fold, gained]
      dsimp only
      rw [iterations, List.map_cons, List.sum_cons]
      cases body value item before with
      | mk after outcome =>
          cases outcome with
          | error error => rfl
          | ok next => rfl

/-- A loop whose iterations keep the measure keeps it. -/
theorem keeps_fold
    {body : Value → Item → Attempt State Error Value}
    (each : ∀ value item, Keeps measure (body value item))
    (value : Value)
    (items : List Item) :
    Keeps measure (fold body value items) := by
  induction items generalizing value with
  | nil => exact keeps_done value
  | cons item rest inductionHypothesis =>
      exact (each value item).andThen_keeps inductionHypothesis

end Gains

section Dues

variable [AddCommMonoid Measure]

/-- A gain is at least what is due, and exactly that under a condition. -/
def Dues
    (gain due : Measure)
    (exactly : Prop) : Prop :=
  ∃ excess, gain = due + excess ∧ (excess = 0 ↔ exactly)

theorem dues_self
    {gain : Measure}
    {exactly : Prop}
    (holds : exactly) : Dues gain gain exactly :=
  ⟨0, (add_zero gain).symm, fun _ => holds, fun _ => rfl⟩

/-- Where nothing is due, the gain itself is in excess. -/
theorem dues_nothing
    {gain : Measure}
    {exactly : Prop}
    (isZero : gain = 0 ↔ exactly) : Dues gain 0 exactly :=
  ⟨gain, (zero_add gain).symm, isZero⟩

/-- A sum is zero where all its terms are. -/
theorem sum_eq_zero_iff_of_add
    (zero : ∀ first second : Measure,
      first + second = 0 ↔ first = 0 ∧ second = 0)
    {Term : Type z}
    {gain : Term → Measure}
    {exactly : Term → Prop}
    (isZero : ∀ term, gain term = 0 ↔ exactly term)
    (terms : List Term) :
    (terms.map gain).sum = 0 ↔ ∀ term ∈ terms, exactly term := by
  induction terms with
  | nil => exact ⟨fun _ term member => (by cases member), fun _ => rfl⟩
  | cons first rest inductionHypothesis =>
      rw [List.map_cons, List.sum_cons, zero, isZero, inductionHypothesis,
        List.forall_mem_cons]

/-- Sums of gains and dues agree exactly if all their terms do. -/
theorem dues_sum
    (zero : ∀ first second : Measure,
      first + second = 0 ↔ first = 0 ∧ second = 0)
    {Term : Type z}
    {gain due : Term → Measure}
    {exactly : Term → Prop}
    {terms : List Term}
    (each : ∀ term ∈ terms, Dues (gain term) (due term) (exactly term)) :
    Dues (terms.map gain).sum (terms.map due).sum
      (∀ term ∈ terms, exactly term) := by
  induction terms with
  | nil =>
      exact dues_self fun term member => by cases member
  | cons first rest inductionHypothesis =>
      obtain ⟨firstExcess, isFirst, firstExactly⟩ :=
        each first List.mem_cons_self
      obtain ⟨restExcess, isRest, restExactly⟩ :=
        inductionHypothesis fun term member =>
          each term (List.mem_cons_of_mem first member)
      refine ⟨firstExcess + restExcess, ?_, ?_⟩
      · simp only [List.map_cons, List.sum_cons]
        rw [isFirst, isRest]
        exact add_add_add_comm _ _ _ _
      · rw [zero, firstExactly, restExactly, List.forall_mem_cons]

/-- Where nothing can be cancelled but equals, a gain is its due exactly
under the condition. -/
theorem Dues.eq_iff
    [IsLeftCancelAdd Measure]
    {gain due : Measure}
    {exactly : Prop}
    (dues : Dues gain due exactly) :
    gain = due ↔ exactly := by
  obtain ⟨excess, isGain, isExactly⟩ := dues
  rw [isGain, add_eq_left, isExactly]

end Dues

end Attempt
