import Bam.Lib.Runs

namespace Reentry

/-!
# Contracts that send ether

A call of a contract runs up to the ether it sends, if it sends any.  From there
on the recipient runs: it may call the contracts again, any number of times,
until it returns or reverts, and then the call under way goes on.  The machine
keeps the calls that wait for their recipient on a stack, with what their revert
restores.

`Kept` is what the contracts owe for an invariant over the world and the calls
that wait; `allStates_of_kept` turns it into a statement about every state of
every run, those inside a recipient's turn included.
-/

/-- How far a call gets on its own. -/
inductive Progress (World : Type*) where
  | returned (world : World)
  /-- It sends ether: the world without the transfer, and with it. -/
  | sends (unpaid paid : World)

/-- The same progress of a contract inside a larger world. -/
def Progress.map
    {World Larger : Type*}
    (embed : World → Larger) : Progress World → Progress Larger
  | .returned world => .returned (embed world)
  | .sends unpaid paid => .sends (embed unpaid) (embed paid)

/-- The world as it is then; the recipient sees the transfer. -/
def Progress.reached {World : Type*} : Progress World → World
  | .returned world => world
  | .sends _ paid => paid

@[simp] theorem Progress.reached_map
    {World Larger : Type*}
    (embed : World → Larger)
    (progress : Progress World) :
    (progress.map embed).reached = embed progress.reached := by
  cases progress with
  | returned world =>
      rfl
  | sends unpaid paid =>
      rfl

/-- What calls do before the ether they send, and after it, given whether the
recipient took it.  An error is a revert. -/
structure Contracts (World Call Error : Type*) where
  start : World → Call → Except Error (Progress World)
  finish : World → Call → Bool → Except Error World

/-- A call that waits for its recipient. -/
structure Frame (World Call : Type*) where
  call : Call
  before : World
  unpaid : World

structure State (World Call : Type*) where
  world : World
  frames : List (Frame World Call)

inductive Event (Call : Type*) where
  | call (call : Call)
  /-- The recipient under way returns. -/
  | returns
  /-- The recipient under way reverts. -/
  | reverts

variable {World Call Error : Type*}

/-- The calls that wait, innermost first. -/
def State.waiting (state : State World Call) : List Call :=
  state.frames.map Frame.call

/-- The state before any call. -/
def idle (world : World) : State World Call where
  world := world
  frames := []

/-- A call ends; a revert restores the world it was made in. -/
def settle
    (frame : Frame World Call)
    (below : List (Frame World Call)) :
    Except Error World → State World Call
  | .ok world => { world := world, frames := below }
  | .error _ => { world := frame.before, frames := below }

/-- One step.  A call that reverts leaves the state as it is. -/
def step
    (contracts : Contracts World Call Error)
    (state : State World Call) :
    Event Call → Option (State World Call)
  | .call call =>
      match contracts.start state.world call with
      | .error _ => some state
      | .ok (.returned world) => some { state with world := world }
      | .ok (.sends unpaid paid) =>
          some {
            world := paid
            frames := {
              call := call
              before := state.world
              unpaid := unpaid } :: state.frames }
  | .returns =>
      match state.frames with
      | [] => none
      | frame :: below =>
          some (settle frame below
            (contracts.finish state.world frame.call true))
  | .reverts =>
      match state.frames with
      | [] => none
      | frame :: below =>
          some (settle frame below
            (contracts.finish frame.unpaid frame.call false))

/-- The calls of a run are allowed in the world they are made in. -/
def Allowed
    (allows : World → Call → Prop)
    (state : State World Call) : Event Call → Prop
  | .call call => allows state.world call
  | .returns => True
  | .reverts => True

/-- What keeps an invariant over the world and the waiting calls. -/
structure Kept
    (contracts : Contracts World Call Error)
    (good : World → List Call → Prop)
    (allows : World → Call → Prop) : Prop where
  returned :
    ∀ {world next : World} {waiting : List Call} {call : Call},
      good world waiting →
      allows world call →
      contracts.start world call = .ok (.returned next) →
      good next waiting
  sends :
    ∀ {world unpaid paid : World} {waiting : List Call} {call : Call},
      good world waiting →
      allows world call →
      contracts.start world call = .ok (.sends unpaid paid) →
      good paid (call :: waiting)
  finished :
    ∀ {world next : World} {waiting : List Call} {call : Call},
      good world (call :: waiting) →
      contracts.finish world call true = .ok next →
      good next waiting
  /-- No call goes on after a transfer that failed. -/
  required :
    ∀ (world next : World) (call : Call),
      contracts.finish world call false ≠ .ok next

/-- An invariant that does not read the waiting calls. -/
theorem kept_of_world
    {contracts : Contracts World Call Error}
    {good : World → Prop}
    {allows : World → Call → Prop}
    (started :
      ∀ {world : World} {call : Call} {progress : Progress World},
        good world →
        allows world call →
        contracts.start world call = .ok progress →
        good progress.reached)
    (finished :
      ∀ {world next : World} {call : Call},
        good world →
        contracts.finish world call true = .ok next →
        good next)
    (required :
      ∀ (world next : World) (call : Call),
        contracts.finish world call false ≠ .ok next) :
    Kept contracts (fun world _ => good world) allows where
  returned := fun holds allowed ran => started holds allowed ran
  sends := fun holds allowed ran => started holds allowed ran
  finished := finished
  required := required

/-- The invariant holds now, and held in each world a revert would restore. -/
def Standing (good : World → List Call → Prop) :
    World → List (Frame World Call) → Prop
  | world, [] => good world []
  | world, frame :: below =>
      good world (frame.call :: below.map Frame.call) ∧
        Standing good frame.before below

variable {contracts : Contracts World Call Error}
variable {good : World → List Call → Prop}
variable {allows : World → Call → Prop}

theorem Standing.now
    {world : World}
    {frames : List (Frame World Call)}
    (standing : Standing good world frames) :
    good world (frames.map Frame.call) := by
  cases frames with
  | nil =>
      exact standing
  | cons frame below =>
      exact standing.1

/-- A new world under the same waiting calls. -/
theorem Standing.advance
    {world next : World}
    {frames : List (Frame World Call)}
    (standing : Standing good world frames)
    (holds : good next (frames.map Frame.call)) :
    Standing good next frames := by
  cases frames with
  | nil =>
      exact holds
  | cons frame below =>
      exact ⟨holds, standing.2⟩

/-- One step keeps the invariant, and the worlds a revert would restore. -/
theorem standing_step
    (kept : Kept contracts good allows)
    {state next : State World Call}
    {event : Event Call}
    (standing : Standing good state.world state.frames)
    (allowed : Allowed allows state event)
    (taken : step contracts state event = some next) :
    Standing good next.world next.frames := by
  cases event with
  | call call =>
      simp only [step] at taken
      split at taken
      · cases taken
        exact standing
      · rename_i started
        cases taken
        exact standing.advance
          (kept.returned standing.now allowed started)
      · rename_i started
        cases taken
        exact ⟨kept.sends standing.now allowed started, standing⟩
  | returns =>
      simp only [step] at taken
      split at taken
      · cases taken
      · rename_i frame below frames
        cases taken
        rw [frames] at standing
        cases ended :
            contracts.finish state.world frame.call true with
        | ok world =>
            exact standing.2.advance
              (kept.finished standing.1 ended)
        | error reason =>
            exact standing.2
  | reverts =>
      simp only [step] at taken
      split at taken
      · cases taken
      · rename_i frame below frames
        cases taken
        rw [frames] at standing
        cases ended :
            contracts.finish frame.unpaid frame.call false with
        | ok world =>
            exact absurd ended (kept.required _ _ _)
        | error reason =>
            exact standing.2

/-- The invariant holds in every state of a run whose calls are allowed. -/
theorem allStates_of_kept
    (kept : Kept contracts good allows)
    {world : World}
    (initially : good world [])
    {events : List (Event Call)}
    (allowed :
      Runs.AllSteps (step contracts) (Allowed allows)
        (idle world) events) :
    Runs.AllStates (step contracts)
      (fun state => good state.world state.waiting)
      (idle world) events :=
  Runs.AllStates.mono
    (fun _ standing => Standing.now standing)
    (Runs.allStates_of_invariant
      (fun standing permitted taken =>
        standing_step kept standing permitted taken)
      initially allowed)

/-- Whatever a recipient has the contracts do before it reverts, the call that
sent it ether leaves no trace. -/
theorem reverts_restores
    (kept : Kept contracts good allows)
    {state opened inner : State World Call}
    {call : Call}
    (taken : step contracts state (.call call) = some opened)
    (waits : opened.frames ≠ state.frames)
    (same : inner.frames = opened.frames) :
    step contracts inner .reverts = some state := by
  simp only [step] at taken
  split at taken
  · cases taken
    exact absurd rfl waits
  · cases taken
    exact absurd rfl waits
  · rename_i unpaid paid started
    cases taken
    simp only [step, same]
    cases ended : contracts.finish unpaid call false with
    | ok world =>
        exact absurd ended (kept.required _ _ _)
    | error reason =>
        rfl

end Reentry
