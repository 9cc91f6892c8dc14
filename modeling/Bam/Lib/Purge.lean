import Mathlib.Data.List.Basic

namespace Purge

/-!
# Purging a run

A system takes one label a step and answers it.  Some labels are visible to an
observer.  If hidden labels leave what the observer can tell apart unchanged,
and visible ones answer alike in states the observer cannot tell apart, then the
observer sees in a run what the visible labels alone would have shown.
-/

variable {State Label Answer : Type*}
variable (step : State → Label → State × Answer)
variable (visible : Label → Bool)

/-- The state a run ends in, and the answers to its visible labels. -/
def run : State → List Label → State × List Answer
  | state, [] => (state, [])
  | state, label :: rest =>
      let taken := step state label
      let later := run taken.1 rest
      (later.1,
        if visible label then taken.2 :: later.2 else later.2)

variable {step visible}

/-- The unwinding rule. -/
theorem run_purged
    {alike : State → State → Prop}
    {admits : Label → Prop}
    (hidden :
      ∀ state other label,
        alike state other →
        admits label →
        visible label = false →
        alike (step state label).1 other)
    (shown :
      ∀ state other label,
        alike state other →
        admits label →
        visible label = true →
        alike (step state label).1 (step other label).1 ∧
          (step state label).2 = (step other label).2)
    (labels : List Label)
    (admitted : ∀ label ∈ labels, admits label)
    {state other : State}
    (start : alike state other) :
    alike (run step visible state labels).1
        (run step visible other (labels.filter visible)).1 ∧
      (run step visible state labels).2 =
        (run step visible other (labels.filter visible)).2 := by
  induction labels generalizing state other with
  | nil =>
      exact ⟨start, rfl⟩
  | cons label rest inductionHypothesis =>
      have isAdmitted := admitted label List.mem_cons_self
      have restAdmitted : ∀ later ∈ rest, admits later :=
        fun later member =>
          admitted later (List.mem_cons_of_mem label member)
      cases isVisible : visible label with
      | false =>
          have next := hidden state other label start isAdmitted isVisible
          have later := inductionHypothesis restAdmitted next
          simpa [run, isVisible, List.filter_cons] using later
      | true =>
          obtain ⟨next, sameAnswer⟩ :=
            shown state other label start isAdmitted isVisible
          have later := inductionHypothesis restAdmitted next
          simp only [run, isVisible, List.filter_cons, if_true]
          exact ⟨later.1, by rw [sameAnswer, later.2]⟩

/-- Outcomes an observer cannot tell apart: the same error, or values it cannot
tell apart. -/
inductive Alike
    {Error Value Other : Type*}
    (alike : Value → Other → Prop) :
    Except Error Value → Except Error Other → Prop where
  | ok
      {value : Value}
      {other : Other}
      (isAlike : alike value other) :
      Alike alike (.ok value) (.ok other)
  | error (error : Error) :
      Alike alike (.error error) (.error error)

end Purge
