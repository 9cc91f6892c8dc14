/-!
# Attempts

An attempt changes a state and then returns a value or fails.  A failure keeps
the changes made before it, so an attempt that is cut anywhere is an attempt
that fails there.  The rules below carry a precondition through sequences and
loops, with one postcondition for a return and one for a failure.
-/

universe u v w z

/-- A computation over a state that returns a value or fails. -/
abbrev Attempt
    (State : Type u)
    (Error : Type v)
    (Value : Type w) :=
  State → State × Except Error Value

namespace Attempt

variable {State : Type u} {Error : Type v} {Value Other : Type w}
variable {Item : Type z}

/-- Return a value. -/
def done
    (value : Value) : Attempt State Error Value :=
  fun state => (state, .ok value)

/-- Fail. -/
def fail
    (error : Error) : Attempt State Error Value :=
  fun state => (state, .error error)

/-- Go on with the value of the first attempt. -/
def andThen
    (first : Attempt State Error Value)
    (next : Value → Attempt State Error Other) :
    Attempt State Error Other :=
  fun state =>
    match first state with
    | (after, .error error) => (after, .error error)
    | (after, .ok value) => next value after

/-- Go on with what the state shows. -/
def reading
    {View : Type z}
    (view : State → View)
    (next : View → Attempt State Error Value) :
    Attempt State Error Value :=
  fun state => next (view state) state

/-- Return an answer, or fail where there is none. -/
def ofOption
    (error : Error)
    (answer : Option Value) : Attempt State Error Value :=
  match answer with
  | none => fail error
  | some value => done value

/-- Return an answer, or fail with its error. -/
def ofExcept
    (answer : Except Error Value) : Attempt State Error Value :=
  match answer with
  | .error error => fail error
  | .ok value => done value

/-- A loop that carries an accumulator over the items of a list. -/
def fold
    (body : Value → Item → Attempt State Error Value) :
    Value → List Item → Attempt State Error Value
  | value, [] => done value
  | value, item :: rest =>
      (body value item).andThen fun next => fold body next rest

/-- An attempt on a part of a state. -/
def onPart
    {Whole : Type u}
    (part : Whole → State)
    (replace : Whole → State → Whole)
    (attempt : Attempt State Error Value) :
    Attempt Whole Error Value :=
  fun whole =>
    match attempt (part whole) with
    | (after, outcome) => (replace whole after, outcome)

/-- From a state with `before`, a return leaves `returns` of its value and a
failure leaves `fails`. -/
def Ensures
    (before : State → Prop)
    (attempt : Attempt State Error Value)
    (returns : Value → State → Prop)
    (fails : State → Prop) : Prop :=
  ∀ state, before state →
    match attempt state with
    | (after, .ok value) => returns value after
    | (after, .error _) => fails after

variable {before : State → Prop} {fails : State → Prop}
variable {returns : Value → State → Prop}

theorem ensures_done
    {value : Value}
    (kept : ∀ state, before state → returns value state) :
    Ensures before (done value : Attempt State Error Value) returns
      fails :=
  kept

theorem ensures_fail
    {error : Error}
    (kept : ∀ state, before state → fails state) :
    Ensures before (fail error : Attempt State Error Value) returns
      fails :=
  kept

/-- It is enough to look at each start on its own. -/
theorem ensures_of_each
    {attempt : Attempt State Error Value}
    (each : ∀ start, before start →
      Ensures (· = start) attempt returns fails) :
    Ensures before attempt returns fails :=
  fun start isBefore => each start isBefore start rfl

/-- The rule for an attempt that first reads its state. -/
theorem ensures_reading
    {View : Type z}
    {view : State → View}
    {next : View → Attempt State Error Value}
    (each : ∀ start, before start →
      Ensures (· = start) (next (view start)) returns fails) :
    Ensures before (reading view next) returns fails :=
  fun start isBefore => each start isBefore start rfl

/-- The rule of consequence. -/
theorem Ensures.mono
    {attempt : Attempt State Error Value}
    {stronger weakerFails : State → Prop}
    {weakerReturns : Value → State → Prop}
    (holds : Ensures before attempt returns fails)
    (strengthen : ∀ state, stronger state → before state)
    (weaken : ∀ value state,
      returns value state → weakerReturns value state)
    (weakenFails : ∀ state, fails state → weakerFails state) :
    Ensures stronger attempt weakerReturns weakerFails := by
  intro state isStronger
  have result := holds state (strengthen state isStronger)
  cases executed : attempt state with
  | mk after outcome =>
      rw [executed] at result
      cases outcome with
      | error error =>
          exact weakenFails after result
      | ok value =>
          exact weaken value after result

/-- What holds wherever an attempt is cut holds of the state it leaves. -/
theorem Ensures.leaves
    {attempt : Attempt State Error Value}
    {holds : State → Prop}
    (ensured : Ensures before attempt (fun _ => holds) holds)
    {state : State}
    (isBefore : before state) : holds (attempt state).1 := by
  have result := ensured state isBefore
  cases executed : attempt state with
  | mk after outcome =>
      rw [executed] at result
      cases outcome with
      | error error =>
          exact result
      | ok value =>
          exact result

/-- The rule of sequencing. -/
theorem ensures_andThen
    {first : Attempt State Error Value}
    {next : Value → Attempt State Error Other}
    {ends : Other → State → Prop}
    (middle : Value → State → Prop)
    (holds : Ensures before first middle fails)
    (later : ∀ value, Ensures (middle value) (next value) ends fails) :
    Ensures before (first.andThen next) ends fails := by
  intro state isBefore
  have result := holds state isBefore
  unfold andThen
  cases executed : first state with
  | mk after outcome =>
      rw [executed] at result
      cases outcome with
      | error error =>
          exact result
      | ok value =>
          exact later value after result

/-- The rule for an attempt on a part of the state. -/
theorem ensures_onPart
    {Whole : Type u}
    {part : Whole → State}
    {replace : Whole → State → Whole}
    {attempt : Attempt State Error Value}
    {start : Whole}
    {wholeReturns : Value → Whole → Prop}
    {wholeFails : Whole → Prop}
    (holds :
      Ensures (· = part start) attempt
        (fun value after => wholeReturns value (replace start after))
        fun after => wholeFails (replace start after)) :
    Ensures (· = start) (onPart part replace attempt) wholeReturns
      wholeFails := by
  rintro whole rfl
  have result := holds (part whole) rfl
  unfold onPart
  cases executed : attempt (part whole) with
  | mk after outcome =>
      rw [executed] at result
      cases outcome with
      | error error =>
          exact result
      | ok value =>
          exact result

theorem ensures_ofOption
    {error : Error}
    {answer : Option Value}
    (failed : ∀ state, before state → fails state)
    (answered : ∀ value, answer = some value →
      ∀ state, before state → returns value state) :
    Ensures before (ofOption error answer) returns fails := by
  cases answer with
  | none =>
      exact ensures_fail failed
  | some value =>
      exact ensures_done (answered value rfl)

theorem ensures_ofExcept
    {answer : Except Error Value}
    (failed : ∀ state, before state → fails state)
    (answered : ∀ value, answer = .ok value →
      ∀ state, before state → returns value state) :
    Ensures before (ofExcept answer) returns fails := by
  cases answer with
  | error error =>
      exact ensures_fail failed
  | ok value =>
      exact ensures_done (answered value rfl)

/-- The rule of loops: the invariant speaks of the items that are left, and
every item of the loop keeps it. -/
theorem ensures_fold
    {body : Value → Item → Attempt State Error Value}
    (invariant : List Item → Value → State → Prop)
    {items : List Item}
    (kept : ∀ item rest value,
      item :: rest <:+ items →
      Ensures (invariant (item :: rest) value) (body value item)
        (invariant rest) fails)
    (value : Value) :
    Ensures (invariant items value) (fold body value items)
      (invariant []) fails := by
  induction items generalizing value with
  | nil =>
      exact ensures_done fun _ holds => holds
  | cons item rest inductionHypothesis =>
      refine ensures_andThen _
        (kept item rest value List.suffix_rfl) fun next => ?_
      exact inductionHypothesis
        (fun later others value suffix =>
          kept later others value
            (suffix.trans (List.suffix_cons item rest)))
        next

section InStep

/-!
Two attempts in step: from related states they end alike and leave related
states.
-/

variable {Second : Type u} {Failure : Type v} {Answer Later : Type w}

/-- Both ends return, with related values, or both fail. -/
def EndAlike
    (values : Value → Answer → Prop) :
    Except Error Value → Except Failure Answer → Prop
  | .ok value, .ok answer => values value answer
  | .error _, .error _ => True
  | .ok _, .error _ => False
  | .error _, .ok _ => False

def InStep
    (related : State → Second → Prop)
    (values : Value → Answer → Prop)
    (left : Attempt State Error Value)
    (right : Attempt Second Failure Answer) : Prop :=
  ∀ first second, related first second →
    related (left first).1 (right second).1 ∧
      EndAlike values (left first).2 (right second).2

variable {related : State → Second → Prop}
variable {values : Value → Answer → Prop}

theorem inStep_done
    {value : Value}
    {answer : Answer}
    (alike : values value answer) :
    InStep related values (done value : Attempt State Error Value)
      (done answer : Attempt Second Failure Answer) :=
  fun _ _ isRelated => ⟨isRelated, alike⟩

theorem inStep_fail
    {error : Error}
    {failure : Failure} :
    InStep related values (fail error : Attempt State Error Value)
      (fail failure : Attempt Second Failure Answer) :=
  fun _ _ isRelated => ⟨isRelated, trivial⟩

theorem inStep_ofOption
    {error : Error}
    {failure : Failure}
    (answer : Option Value) :
    InStep related (· = ·)
      (ofOption error answer : Attempt State Error Value)
      (ofOption failure answer : Attempt Second Failure Value) := by
  cases answer with
  | none => exact inStep_fail
  | some value => exact inStep_done rfl

theorem inStep_ofExcept
    (answer : Except Error Value) :
    InStep related (· = ·)
      (ofExcept answer : Attempt State Error Value)
      (ofExcept answer : Attempt Second Error Value) := by
  cases answer with
  | error error => exact inStep_fail
  | ok value => exact inStep_done rfl

theorem inStep_andThen
    {left : Attempt State Error Value}
    {right : Attempt Second Failure Answer}
    {next : Value → Attempt State Error Other}
    {rightNext : Answer → Attempt Second Failure Later}
    {ends : Other → Later → Prop}
    (starts : InStep related values left right)
    (later : ∀ value answer, values value answer →
      InStep related ends (next value) (rightNext answer)) :
    InStep related ends (left.andThen next)
      (right.andThen rightNext) := by
  intro first second isRelated
  obtain ⟨after, alike⟩ := starts first second isRelated
  unfold andThen
  cases leftRun : left first with
  | mk leftAfter leftEnd =>
      cases rightRun : right second with
      | mk rightAfter rightEnd =>
          rw [leftRun, rightRun] at after alike
          cases leftEnd with
          | error error =>
              cases rightEnd with
              | error failure => exact ⟨after, trivial⟩
              | ok answer => cases alike
          | ok value =>
              cases rightEnd with
              | error failure => cases alike
              | ok answer => exact later value answer alike _ _ after

theorem inStep_reading
    {View View' : Type z}
    {view : State → View}
    {view' : Second → View'}
    {next : View → Attempt State Error Value}
    {next' : View' → Attempt Second Failure Answer}
    (each : ∀ first second, related first second →
      InStep related values (next (view first)) (next' (view' second))) :
    InStep related values (reading view next) (reading view' next') :=
  fun first second isRelated => each first second isRelated _ _ isRelated

/-- Loops over one list are in step when their bodies are. -/
theorem inStep_fold
    {body : Value → Item → Attempt State Error Value}
    {body' : Answer → Item → Attempt Second Failure Answer}
    (each : ∀ item value answer, values value answer →
      InStep related values (body value item) (body' answer item))
    (items : List Item)
    {value : Value}
    {answer : Answer}
    (alike : values value answer) :
    InStep related values (fold body value items)
      (fold body' answer items) := by
  induction items generalizing value answer with
  | nil => exact inStep_done alike
  | cons item rest inductionHypothesis =>
      exact inStep_andThen (each item value answer alike)
        fun _ _ nextAlike => inductionHypothesis nextAlike

end InStep

end Attempt
