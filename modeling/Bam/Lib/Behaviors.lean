import Mathlib.Data.Nat.Notation

/-!
# Behaviours of a deterministic system

A system that is always able to step consumes one input a step.  Its behaviour
from a state is the sequence of states it goes through.  `Leads` says that one
predicate is followed by another on every behaviour, whatever the inputs; the
rules below compose such facts and turn a rank that falls into one.
-/

namespace Behaviors

variable {State Input : Type*}
variable (step : State → Input → State)

/-- The state after a number of steps. -/
def after
    (inputs : ℕ → Input)
    (state : State) : ℕ → State
  | 0 => state
  | count + 1 => step (after inputs state count) (inputs count)

/-- From every state with `start`, a state with `goal` is reached. -/
def Leads
    (start goal : State → Prop) : Prop :=
  ∀ state, start state →
    ∀ inputs, ∃ count, goal (after step inputs state count)

variable {step}

/-- The behaviour from a later state is the rest of the behaviour. -/
theorem after_add
    (inputs : ℕ → Input)
    (state : State)
    (first second : ℕ) :
    after step inputs state (first + second) =
      after step (fun count => inputs (first + count))
        (after step inputs state first) second := by
  induction second with
  | zero =>
      rfl
  | succ second inductionHypothesis =>
      show step (after step inputs state (first + second))
        (inputs (first + second)) = _
      rw [inductionHypothesis]
      rfl

/-- What a step keeps, a behaviour keeps. -/
theorem after_keeps
    {invariant : State → Prop}
    (kept : ∀ state input, invariant state → invariant (step state input))
    {inputs : ℕ → Input}
    {state : State}
    (initially : invariant state)
    (count : ℕ) :
    invariant (after step inputs state count) := by
  induction count with
  | zero =>
      exact initially
  | succ count inductionHypothesis =>
      exact kept _ _ inductionHypothesis

variable {start middle goal : State → Prop}

theorem leads_of_imp
    (implies : ∀ state, start state → goal state) :
    Leads step start goal :=
  fun state isStart _ => ⟨0, implies state isStart⟩

/-- One step may be enough. -/
theorem leads_of_step
    (reaches : ∀ state input, start state → goal (step state input)) :
    Leads step start goal :=
  fun state isStart inputs => ⟨1, reaches state (inputs 0) isStart⟩

theorem Leads.trans
    (first : Leads step start middle)
    (second : Leads step middle goal) :
    Leads step start goal := by
  intro state isStart inputs
  obtain ⟨before, isMiddle⟩ := first state isStart inputs
  obtain ⟨rest, isGoal⟩ :=
    second _ isMiddle fun count => inputs (before + count)
  exact ⟨before + rest, after_add inputs state before rest ▸ isGoal⟩

/-- A step and then what follows it. -/
theorem leads_after_step
    (middle : State → Prop)
    (reaches : ∀ state input, start state → middle (step state input))
    (later : Leads step middle goal) :
    Leads step start goal :=
  (leads_of_step reaches).trans later

/-- Two cases of a start. -/
theorem leads_by_cases
    (condition : State → Prop)
    (holds : Leads step (fun state => start state ∧ condition state) goal)
    (fails :
      Leads step (fun state => start state ∧ ¬ condition state) goal) :
    Leads step start goal := by
  intro state isStart
  by_cases isCase : condition state
  · exact holds state ⟨isStart, isCase⟩
  · exact fails state ⟨isStart, isCase⟩

/-- The rank rule: if from every start either the goal is reached or a start of
smaller rank, the goal is reached. -/
theorem leads_of_rank
    {Rank : Type*}
    {smaller : Rank → Rank → Prop}
    (wellFounded : WellFounded smaller)
    (rank : State → Rank)
    (progress : ∀ bound,
      Leads step (fun state => start state ∧ rank state = bound)
        (fun state =>
          goal state ∨ (start state ∧ smaller (rank state) bound))) :
    Leads step start goal := by
  suffices below : ∀ bound,
      Leads step (fun state => start state ∧ rank state = bound) goal from
    fun state isStart => below (rank state) state ⟨isStart, rfl⟩
  intro bound
  induction bound using wellFounded.induction with
  | h bound inductionHypothesis =>
      refine (progress bound).trans fun state reached inputs => ?_
      rcases reached with isGoal | ⟨isStart, isSmaller⟩
      · exact ⟨0, isGoal⟩
      · exact inductionHypothesis _ isSmaller state ⟨isStart, rfl⟩ inputs

/-- A step after which the goal holds or the rank is smaller. -/
theorem leads_of_rank_step
    {Rank : Type*}
    {smaller : Rank → Rank → Prop}
    (wellFounded : WellFounded smaller)
    (rank : State → Rank)
    (progress : ∀ state input, start state →
      goal (step state input) ∨
        (start (step state input) ∧
          smaller (rank (step state input)) (rank state))) :
    Leads step start goal := by
  refine leads_of_rank wellFounded rank fun bound => leads_of_step ?_
  rintro state input ⟨isStart, rfl⟩
  exact progress state input isStart

/-- A goal that steps keep holds from some point on. -/
theorem Leads.forever
    (leads : Leads step start goal)
    (kept : ∀ state input, goal state → goal (step state input))
    {state : State}
    (isStart : start state)
    (inputs : ℕ → Input) :
    ∃ least, ∀ count, least ≤ count →
      goal (after step inputs state count) := by
  obtain ⟨least, isGoal⟩ := leads state isStart inputs
  refine ⟨least, fun count later => ?_⟩
  obtain ⟨more, rfl⟩ := Nat.exists_eq_add_of_le later
  rw [after_add]
  exact after_keeps kept isGoal more

end Behaviors
