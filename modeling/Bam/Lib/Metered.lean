import Mathlib.Data.List.Basic

/-!
# Computations that pay for their rounds

A computation starts with the number of rounds it can pay for and ends with what
is left of them, or stops without a result when they do not suffice.  It costs a
number of rounds if it ends exactly when it can pay for them.
-/

/-- From the rounds that can be paid for, the result with those left. -/
abbrev Metered (α : Type) : Type :=
  StateT Nat Option α

namespace Metered

variable {α β : Type}

/-- Pay for a number of rounds. -/
def pay (rounds : Nat) : Metered Unit :=
  fun paid => if rounds ≤ paid then some ((), paid - rounds) else none

/-- The computation needs that many rounds for that value. -/
def Costs
    (computation : Metered α)
    (value : α)
    (rounds : Nat) : Prop :=
  ∀ paid,
    computation.run paid =
      if rounds ≤ paid then some (value, paid - rounds) else none

/-- With that many rounds paid for, the computation ends well. -/
def Ends
    (computation : Metered α)
    (paid : Nat)
    (good : α → Prop) : Prop :=
  ∃ value left, computation.run paid = some (value, left) ∧ good value

theorem costs_pay (rounds : Nat) :
    Costs (pay rounds) () rounds :=
  fun _ => rfl

theorem costs_pure (value : α) :
    Costs (pure value) value 0 :=
  fun _ => rfl

/-- Costs add up. -/
theorem Costs.bind
    {computation : Metered α}
    {next : α → Metered β}
    {value : α}
    {result : β}
    {rounds more : Nat}
    (first : Costs computation value rounds)
    (second : Costs (next value) result more) :
    Costs (computation >>= next) result (rounds + more) := by
  intro paid
  rw [StateT.run_bind, first paid]
  by_cases affordable : rounds ≤ paid
  · rw [if_pos affordable]
    change (next value).run (paid - rounds) = _
    rw [second (paid - rounds)]
    by_cases both : rounds + more ≤ paid
    · rw [if_pos both, if_pos (by omega), Nat.sub_sub]
    · rw [if_neg both, if_neg (by omega)]
  · rw [if_neg affordable, if_neg (by omega)]
    rfl

/-- What is made of the value is free. -/
theorem Costs.bind_pure
    {computation : Metered α}
    {value : α}
    {rounds : Nat}
    (costs : Costs computation value rounds)
    (f : α → β) :
    Costs (computation >>= fun result => pure (f result)) (f value)
      rounds := by
  rw [← Nat.add_zero rounds]
  exact costs.bind (costs_pure (f value))

/-- The rounds of a loop, each from the value before it. -/
def foldRounds
    (value : β → α → β)
    (rounds : β → α → Nat) : List α → β → Nat
  | [], _ => 0
  | item :: rest, state =>
      rounds state item + foldRounds value rounds rest (value state item)

section Fold

variable {step : β → α → Metered β}
variable {value : β → α → β}
variable {rounds : β → α → Nat}

/-- A loop costs what its rounds cost. -/
theorem Costs.foldlM
    (each :
      ∀ state item,
        Costs (step state item) (value state item) (rounds state item))
    (items : List α)
    (state : β) :
    Costs (items.foldlM step state) (items.foldl value state)
      (foldRounds value rounds items state) := by
  induction items generalizing state with
  | nil =>
      exact costs_pure state
  | cons item rest inductionHypothesis =>
      rw [List.foldlM_cons, List.foldl_cons]
      exact (each state item).bind (inductionHypothesis _)

/-- A loop costs at least what one of its rounds does. -/
theorem rounds_le_foldRounds
    (leading rest : List α)
    (item : α)
    (state : β) :
    rounds (leading.foldl value state) item ≤
      foldRounds value rounds (leading ++ item :: rest) state := by
  induction leading generalizing state with
  | nil =>
      exact Nat.le_add_right _ _
  | cons first leading inductionHypothesis =>
      exact Nat.le_trans (inductionHypothesis (value state first))
        (Nat.le_add_left _ _)

/-- A loop whose every round is free under its invariant is free. -/
theorem foldRounds_eq_zero
    {invariant : β → Prop}
    (free :
      ∀ state item,
        invariant state →
        rounds state item = 0 ∧ invariant (value state item))
    (items : List α)
    {state : β}
    (initially : invariant state) :
    foldRounds value rounds items state = 0 ∧
      invariant (items.foldl value state) := by
  induction items generalizing state with
  | nil =>
      exact ⟨rfl, initially⟩
  | cons item rest inductionHypothesis =>
      obtain ⟨isFree, kept⟩ := free state item initially
      rw [foldRounds, isFree, Nat.zero_add, List.foldl_cons]
      exact inductionHypothesis kept

end Fold

variable {computation : Metered α} {value : α} {rounds paid : Nat}

/-- A computation that can pay for its rounds ends with its value. -/
theorem Costs.ends_iff
    (costs : Costs computation value rounds)
    {good : α → Prop} :
    Ends computation paid good ↔ rounds ≤ paid ∧ good value := by
  unfold Ends
  rw [costs paid]
  split
  · rename_i affordable
    constructor
    · rintro ⟨result, left, ends, isGood⟩
      cases ends
      exact ⟨affordable, isGood⟩
    · exact fun ⟨_, isGood⟩ => ⟨value, _, rfl, isGood⟩
  · rename_i dear
    constructor
    · rintro ⟨_, _, ends, _⟩
      cases ends
    · exact fun ⟨affordable, _⟩ => absurd affordable dear

end Metered
