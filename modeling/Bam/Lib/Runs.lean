import Mathlib.Data.List.Basic

namespace Runs

/-!
# Runs of a labelled transition system

A system is a partial step function: a label is enabled in a state when the
step function returns a next state.  A run is a list of labels executed from a
start state until one of them is not enabled.

Two predicates talk about a whole run: `AllStates` asks something of every
state the run visits, and `AllSteps` asks something of every step, read off the
state *before* it.  The rules below pass from the steps of a run to its states.
-/

variable {State Label : Type*}
variable (step : State → Label → Option State)

/-- Execute a list of labels; `none` as soon as one of them is not enabled. -/
def exec? : State → List Label → Option State
  | state, [] => some state
  | state, label :: rest =>
      match step state label with
      | none => none
      | some next => exec? next rest

/-- Every state visited by the run, its start included, satisfies `holds`. -/
def AllStates
    (holds : State → Prop) :
    State → List Label → Prop
  | state, [] => holds state
  | state, label :: rest =>
      holds state ∧
        match step state label with
        | none => True
        | some next => AllStates holds next rest

/-- Every enabled step of the run satisfies `allows` in the state before it. -/
def AllSteps
    (allows : State → Label → Prop) :
    State → List Label → Prop
  | _, [] => True
  | state, label :: rest =>
      match step state label with
      | none => True
      | some next =>
          allows state label ∧ AllSteps allows next rest

/-- Every enabled step of the run is allowed in the state before it, by the
states visited before that one too, the latest of them first. -/
def AllStepsSince
    (allows : List State → State → Label → Prop) :
    List State → State → List Label → Prop
  | _, _, [] => True
  | visited, state, label :: rest =>
      match step state label with
      | none => True
      | some next =>
          allows visited state label ∧
            AllStepsSince allows (state :: visited) next rest

/-- A state some run from `start` ends in. -/
def Reachable
    (start state : State) : Prop :=
  ∃ labels, exec? step start labels = some state

/-- The steps of a run are checked one after the other. -/
instance decidableAllSteps
    (allows : State → Label → Prop)
    [∀ state label, Decidable (allows state label)] :
    ∀ state labels, Decidable (AllSteps step allows state labels)
  | _, [] => .isTrue trivial
  | state, label :: rest =>
      match taken : step state label with
      | none => .isTrue (by simp [AllSteps, taken])
      | some next =>
          haveI := decidableAllSteps allows next rest
          decidable_of_iff
            (allows state label ∧ AllSteps step allows next rest)
            (by simp [AllSteps, taken])

variable {step}

/-- Executing a concatenation is executing its parts one after the other. -/
theorem exec?_append
    (state : State)
    (leading trailing : List Label) :
    exec? step state (leading ++ trailing) =
      (exec? step state leading).bind
        fun middle => exec? step middle trailing := by
  induction leading generalizing state with
  | nil =>
      rfl
  | cons label rest inductionHypothesis =>
      simp only [List.cons_append, exec?]
      cases step state label with
      | none =>
          rfl
      | some next =>
          exact inductionHypothesis next

/-- The steps of a concatenation are those of its parts. -/
theorem AllSteps.split
    {allows : State → Label → Prop}
    {state middle : State}
    {leading trailing : List Label}
    (all : AllSteps step allows state (leading ++ trailing))
    (executed : exec? step state leading = some middle) :
    AllSteps step allows state leading ∧
      AllSteps step allows middle trailing := by
  induction leading generalizing state with
  | nil =>
      simp only [exec?, Option.some.injEq] at executed
      exact ⟨trivial, executed ▸ all⟩
  | cons label rest inductionHypothesis =>
      simp only [List.cons_append, AllSteps] at all
      simp only [exec?] at executed
      cases taken : step state label with
      | none =>
          simp [taken] at executed
      | some next =>
          simp only [taken] at all executed
          obtain ⟨left, right⟩ := inductionHypothesis all.2 executed
          simp only [AllSteps, taken]
          exact ⟨⟨all.1, left⟩, right⟩

/-- A system without disabled labels runs to the end of every list. -/
theorem exec?_total
    (next : State → Label → State)
    (state : State)
    (labels : List Label) :
    exec? (fun state label => some (next state label)) state labels =
      some (labels.foldl next state) := by
  induction labels generalizing state with
  | nil =>
      rfl
  | cons label rest inductionHypothesis =>
      exact inductionHypothesis (next state label)

/-- The start of a run is one of the states it visits. -/
theorem AllStates.start
    {holds : State → Prop}
    {state : State}
    {labels : List Label}
    (all : AllStates step holds state labels) :
    holds state := by
  cases labels with
  | nil =>
      exact all
  | cons label rest =>
      exact all.1

/-- The state a run ends in is one of the states it visits. -/
theorem AllStates.final
    {holds : State → Prop}
    {state final : State}
    {labels : List Label}
    (all : AllStates step holds state labels)
    (executed : exec? step state labels = some final) :
    holds final := by
  induction labels generalizing state with
  | nil =>
      simp only [exec?, Option.some.injEq] at executed
      exact executed ▸ all
  | cons label rest inductionHypothesis =>
      have later := all.2
      simp only [exec?] at executed
      cases taken : step state label with
      | none =>
          simp [taken] at executed
      | some next =>
          simp only [taken] at executed later
          exact inductionHypothesis later executed

/-- `AllStates` is monotone in the predicate. -/
theorem AllStates.mono
    {weak strong : State → Prop}
    (weaken : ∀ state, strong state → weak state)
    {state : State}
    {labels : List Label}
    (all : AllStates step strong state labels) :
    AllStates step weak state labels := by
  induction labels generalizing state with
  | nil =>
      exact weaken state all
  | cons label rest inductionHypothesis =>
      refine ⟨weaken state all.1, ?_⟩
      have later := all.2
      cases taken : step state label with
      | none =>
          trivial
      | some next =>
          simp only [taken] at later
          exact inductionHypothesis later

/-- `AllSteps` is monotone in the predicate. -/
theorem AllSteps.mono
    {weak strong : State → Label → Prop}
    (weaken : ∀ state label, strong state label → weak state label)
    {state : State}
    {labels : List Label}
    (all : AllSteps step strong state labels) :
    AllSteps step weak state labels := by
  induction labels generalizing state with
  | nil =>
      trivial
  | cons label rest inductionHypothesis =>
      simp only [AllSteps] at all ⊢
      cases taken : step state label with
      | none =>
          trivial
      | some next =>
          simp only [taken] at all
          exact ⟨weaken state label all.1, inductionHypothesis all.2⟩

/-- What holds of every enabled step holds of the steps of every run. -/
theorem AllSteps.of_taken
    {allows : State → Label → Prop}
    (always :
      ∀ {state label next},
        step state label = some next →
        allows state label)
    (state : State)
    (labels : List Label) :
    AllSteps step allows state labels := by
  induction labels generalizing state with
  | nil =>
      trivial
  | cons label rest inductionHypothesis =>
      simp only [AllSteps]
      cases taken : step state label with
      | none =>
          trivial
      | some next =>
          exact ⟨always taken, inductionHypothesis next⟩

/-- What holds of every step holds of the steps of every run. -/
theorem AllSteps.of_forall
    {allows : State → Label → Prop}
    (always : ∀ state label, allows state label)
    (state : State)
    (labels : List Label) :
    AllSteps step allows state labels :=
  .of_taken (fun _ => always _ _) state labels

/-- What holds of each step after the steps before it holds of all steps. -/
theorem AllSteps.of_prefixes
    {allows : State → Label → Prop}
    {start : State}
    {labels : List Label}
    (each :
      ∀ (count : Nat) (within : count < labels.length) (state : State),
        exec? step start (labels.take count) = some state →
          allows state labels[count]) :
    AllSteps step allows start labels := by
  induction labels generalizing start with
  | nil =>
      trivial
  | cons label rest inductionHypothesis =>
      simp only [AllSteps]
      cases taken : step start label with
      | none =>
          trivial
      | some next =>
          refine ⟨each 0 (Nat.succ_pos _) start rfl,
            inductionHypothesis fun count within state executed => ?_⟩
          refine each (count + 1) (Nat.succ_lt_succ within) state ?_
          simp only [List.take_succ_cons, exec?, taken]
          exact executed

/--
The invariant rule: an invariant kept by every allowed step holds in every
state of a run whose steps are all allowed.
-/
theorem allStates_of_invariant
    {invariant : State → Prop}
    {allows : State → Label → Prop}
    (kept :
      ∀ {state label next},
        invariant state →
        allows state label →
        step state label = some next →
        invariant next)
    {state : State}
    {labels : List Label}
    (initially : invariant state)
    (allowed : AllSteps step allows state labels) :
    AllStates step invariant state labels := by
  induction labels generalizing state with
  | nil =>
      exact initially
  | cons label rest inductionHypothesis =>
      refine ⟨initially, ?_⟩
      simp only [AllSteps] at allowed
      cases taken : step state label with
      | none =>
          trivial
      | some next =>
          simp only [taken] at allowed
          exact inductionHypothesis
            (kept initially allowed.1 taken) allowed.2

/-- What an invariant kept by every allowed step gives of an allowed step holds
of every step of a run whose steps are all allowed. -/
theorem allSteps_of_invariant
    {invariant : State → Prop}
    {allows gives : State → Label → Prop}
    (kept :
      ∀ {state label next},
        invariant state →
        allows state label →
        step state label = some next →
        invariant next)
    (given :
      ∀ {state label},
        invariant state →
        allows state label →
        gives state label)
    {state : State}
    {labels : List Label}
    (initially : invariant state)
    (allowed : AllSteps step allows state labels) :
    AllSteps step gives state labels := by
  induction labels generalizing state with
  | nil =>
      trivial
  | cons label rest inductionHypothesis =>
      simp only [AllSteps] at allowed ⊢
      cases taken : step state label with
      | none =>
          trivial
      | some next =>
          simp only [taken] at allowed
          exact ⟨given initially allowed.1,
            inductionHypothesis (kept initially allowed.1 taken)
              allowed.2⟩

/-- An invariant of a state and the states visited before it, kept by every
allowed step, holds in every state of a run whose steps are all allowed. -/
theorem allStates_of_invariant_since
    {invariant : List State → State → Prop}
    {allows : List State → State → Label → Prop}
    (kept :
      ∀ {visited state label next},
        invariant visited state →
        allows visited state label →
        step state label = some next →
        invariant (state :: visited) next)
    {visited : List State}
    {state : State}
    {labels : List Label}
    (initially : invariant visited state)
    (allowed : AllStepsSince step allows visited state labels) :
    AllStates step (fun state => ∃ visited, invariant visited state) state
      labels := by
  induction labels generalizing visited state with
  | nil =>
      exact ⟨visited, initially⟩
  | cons label rest inductionHypothesis =>
      refine ⟨⟨visited, initially⟩, ?_⟩
      simp only [AllStepsSince] at allowed
      cases taken : step state label with
      | none =>
          trivial
      | some next =>
          simp only [taken] at allowed
          exact inductionHypothesis
            (kept initially allowed.1 taken) allowed.2

/-- What such an invariant gives of an allowed step holds of every step of a run
whose steps are all allowed. -/
theorem allSteps_of_invariant_since
    {invariant : List State → State → Prop}
    {allows : List State → State → Label → Prop}
    {gives : State → Label → Prop}
    (kept :
      ∀ {visited state label next},
        invariant visited state →
        allows visited state label →
        step state label = some next →
        invariant (state :: visited) next)
    (given :
      ∀ {visited state label},
        invariant visited state →
        allows visited state label →
        gives state label)
    {visited : List State}
    {state : State}
    {labels : List Label}
    (initially : invariant visited state)
    (allowed : AllStepsSince step allows visited state labels) :
    AllSteps step gives state labels := by
  induction labels generalizing visited state with
  | nil =>
      trivial
  | cons label rest inductionHypothesis =>
      simp only [AllStepsSince, AllSteps] at allowed ⊢
      cases taken : step state label with
      | none =>
          trivial
      | some next =>
          simp only [taken] at allowed
          exact ⟨given initially allowed.1,
            inductionHypothesis (kept initially allowed.1 taken)
              allowed.2⟩

/-- An invariant kept by every step holds in every reachable state. -/
theorem Reachable.invariant
    {invariant : State → Prop}
    (kept :
      ∀ {state label next},
        invariant state →
        step state label = some next →
        invariant next)
    {start state : State}
    (initially : invariant start)
    (reachable : Reachable step start state) :
    invariant state := by
  obtain ⟨labels, executed⟩ := reachable
  induction labels generalizing start with
  | nil =>
      simp only [exec?, Option.some.injEq] at executed
      exact executed ▸ initially
  | cons label rest inductionHypothesis =>
      simp only [exec?] at executed
      cases taken : step start label with
      | none =>
          simp [taken] at executed
      | some next =>
          simp only [taken] at executed
          exact inductionHypothesis (kept initially taken) executed

/-- An invariant kept by the labels of a run holds where the run ends. -/
theorem exec?_invariant
    {invariant : State → Prop}
    {labels : List Label}
    (kept :
      ∀ {state label next},
        invariant state →
        label ∈ labels →
        step state label = some next →
        invariant next)
    {start final : State}
    (initially : invariant start)
    (executed : exec? step start labels = some final) :
    invariant final := by
  induction labels generalizing start with
  | nil =>
      simp only [exec?, Option.some.injEq] at executed
      exact executed ▸ initially
  | cons label rest inductionHypothesis =>
      simp only [exec?] at executed
      cases taken : step start label with
      | none =>
          simp [taken] at executed
      | some next =>
          simp only [taken] at executed
          exact inductionHypothesis
            (fun holds member => kept holds (List.mem_cons_of_mem _ member))
            (kept initially (List.mem_cons_self ..) taken) executed

/--
The exact-condition rule.  When a step from a good state leads to a good state
exactly if it is allowed, a run visits good states only exactly if all its
steps are allowed.  `invariant` carries what every step between good states
keeps.
-/
theorem allStates_iff_allSteps_of_good
    {invariant holds : State → Prop}
    {allows : State → Label → Prop}
    (kept :
      ∀ {state label next},
        invariant state →
        holds state →
        holds next →
        step state label = some next →
        invariant next)
    (exactly :
      ∀ {state label next},
        invariant state →
        holds state →
        step state label = some next →
        (holds next ↔ allows state label))
    {state : State}
    (labels : List Label)
    (initially : invariant state)
    (good : holds state) :
    AllStates step holds state labels ↔
      AllSteps step allows state labels := by
  induction labels generalizing state with
  | nil =>
      exact ⟨fun _ => trivial, fun _ => good⟩
  | cons label rest inductionHypothesis =>
      simp only [AllStates, AllSteps]
      cases taken : step state label with
      | none =>
          simp [good]
      | some next =>
          have stepExactly := exactly initially good taken
          constructor
          · rintro ⟨-, later⟩
            have nextGood : holds next := later.start
            have nextInvariant := kept initially good nextGood taken
            exact ⟨stepExactly.mp nextGood,
              (inductionHypothesis nextInvariant nextGood).mp later⟩
          · rintro ⟨allowed, later⟩
            have nextGood := stepExactly.mpr allowed
            have nextInvariant := kept initially good nextGood taken
            exact ⟨good,
              (inductionHypothesis nextInvariant nextGood).mpr later⟩

/-- The exact-condition rule for an invariant that every step keeps. -/
theorem allStates_iff_allSteps
    {invariant holds : State → Prop}
    {allows : State → Label → Prop}
    (kept :
      ∀ {state label next},
        invariant state →
        step state label = some next →
        invariant next)
    (exactly :
      ∀ {state label next},
        invariant state →
        holds state →
        step state label = some next →
        (holds next ↔ allows state label))
    {state : State}
    (labels : List Label)
    (initially : invariant state)
    (good : holds state) :
    AllStates step holds state labels ↔
      AllSteps step allows state labels :=
  allStates_iff_allSteps_of_good
    (fun invariant _ _ taken => kept invariant taken)
    exactly labels initially good

end Runs
