import Bam.Lib.Runs

namespace Bam
namespace Scheduler

/-!
# The worker timer

`WorkerTimer` on the event loop: one task after the other runs to its first
`await`, and a timer only fires when no microtask is left.  Microtasks may come
in any order, the promise of a tick settles at any time, and `stop` is called
between any two of these steps, any number of times.  The Poster starts a worker
once, and not after it was stopped; its ticks do not call `stop` before their
first `await`.
-/

/-- What the promise of a tick settles to. -/
inductive TickResult where
  | delay (delayMs : Nat)
  | null
  | rejected
  deriving Repr, DecidableEq

/-- A microtask of the worker. -/
inductive Microtask where
  /-- `runTick` goes on after its `await`. -/
  | resume (tick : Nat) (result : TickResult)
  /-- The callback of `finally`. -/
  | finish (tick : Nat)
  /-- `stop` goes on after its `await`. -/
  | resumeStop (call : Nat)
  deriving Repr, DecidableEq

structure WorkerTimer where
  running : Bool
  timer : Option Nat
  currentTick : Option Nat
  deriving Repr, DecidableEq

/-- The event loop around a worker.  Timeouts, ticks and calls of `stop` are
numbered as they come. -/
structure EventLoop where
  worker : WorkerTimer
  started : Bool
  stopped : Bool
  /-- The pending timeouts with their delays. -/
  timeouts : List (Nat × Nat)
  /-- The ticks whose promise is pending. -/
  inFlight : List Nat
  /-- The ticks whose `runTick` has not returned. -/
  unfinished : List Nat
  /-- The calls of `stop` that wait for a `runTick`. -/
  waiting : List (Nat × Nat)
  microtasks : List Microtask
  /-- The calls of `stop` that have resolved. -/
  resolved : List Nat
  handles : Nat
  ticks : Nat
  calls : Nat
  deriving Repr, DecidableEq

/-- A new worker. -/
def EventLoop.initial : EventLoop where
  worker := { running := false, timer := none, currentTick := none }
  started := false
  stopped := false
  timeouts := []
  inFlight := []
  unfinished := []
  waiting := []
  microtasks := []
  resolved := []
  handles := 0
  ticks := 0
  calls := 0

/-- `schedule`. -/
def schedule
    (delayMs : Nat)
    (loop : EventLoop) : EventLoop :=
  if loop.worker.running then
    { loop with
      worker := { loop.worker with timer := some loop.handles }
      timeouts := loop.timeouts ++ [(loop.handles, delayMs)]
      handles := loop.handles + 1 }
  else loop

/-- `start`. -/
def start
    (initialDelayMs : Nat)
    (loop : EventLoop) : EventLoop :=
  if loop.worker.running then loop
  else
    schedule initialDelayMs
      { loop with worker := { loop.worker with running := true } }

/-- The timeouts without that of a handle. -/
def without
    (handle : Nat)
    (timeouts : List (Nat × Nat)) : List (Nat × Nat) :=
  timeouts.filter fun timeout => timeout.1 ≠ handle

/-- The callback of a timeout, up to the first `await` of the tick it runs. -/
def fire
    (handle : Nat)
    (loop : EventLoop) : EventLoop :=
  if loop.worker.running then
    { loop with
      worker := { loop.worker with
        timer := none
        currentTick := some loop.ticks }
      timeouts := without handle loop.timeouts
      inFlight := loop.inFlight ++ [loop.ticks]
      unfinished := loop.unfinished ++ [loop.ticks]
      ticks := loop.ticks + 1 }
  else
    { loop with
      worker := { loop.worker with
        timer := none
        currentTick := some loop.ticks }
      timeouts := without handle loop.timeouts
      microtasks := loop.microtasks ++ [.finish loop.ticks] }

/-- The promise of a tick settles. -/
def settle
    (tick : Nat)
    (result : TickResult)
    (loop : EventLoop) : EventLoop :=
  { loop with
    inFlight := loop.inFlight.erase tick
    microtasks := loop.microtasks ++ [.resume tick result] }

/-- `runTick` returns, and its promise resolves for all that wait for it. -/
def returnTick
    (tick : Nat)
    (loop : EventLoop) : EventLoop :=
  let woken := loop.waiting.filter fun wait => wait.2 = tick
  { loop with
    unfinished := loop.unfinished.erase tick
    waiting := loop.waiting.filter fun wait => wait.2 ≠ tick
    microtasks := loop.microtasks ++
      .finish tick :: woken.map fun wait => .resumeStop wait.1 }

/-- `runTick` after its `await`: after a rejection it goes on in a second. -/
def resumeTick
    (tick : Nat)
    (result : TickResult)
    (loop : EventLoop) : EventLoop :=
  returnTick tick
    (match result with
    | .delay delayMs => schedule delayMs loop
    | .null => loop
    | .rejected =>
        if loop.worker.running then schedule 1000 loop else loop)

def runMicrotask
    (microtask : Microtask)
    (loop : EventLoop) : EventLoop :=
  match microtask with
  | .resume tick result => resumeTick tick result loop
  | .finish _ =>
      { loop with worker := { loop.worker with currentTick := none } }
  | .resumeStop call => { loop with resolved := loop.resolved ++ [call] }

/-- `stop`, up to its `await` if it has one. -/
def stop (loop : EventLoop) : EventLoop :=
  let cleared :=
    { loop with
      worker := { loop.worker with running := false, timer := none }
      timeouts :=
        match loop.worker.timer with
        | none => loop.timeouts
        | some handle => without handle loop.timeouts
      calls := loop.calls + 1 }
  match loop.worker.currentTick with
  | none => { cleared with resolved := loop.resolved ++ [loop.calls] }
  | some tick =>
      if tick ∈ loop.unfinished then
        { cleared with waiting := loop.waiting ++ [(loop.calls, tick)] }
      else
        { cleared with
          microtasks := loop.microtasks ++ [.resumeStop loop.calls] }

/-- What can happen next on the event loop. -/
inductive Event where
  | start (initialDelayMs : Nat)
  | fire (handle : Nat)
  | settle (tick : Nat) (result : TickResult)
  | run (microtask : Microtask)
  | stop
  deriving Repr, DecidableEq

/-- One event; `none` where it cannot happen. -/
def step
    (loop : EventLoop) : Event → Option EventLoop
  | .start initialDelayMs =>
      if loop.started ∨ loop.stopped then none
      else some (start initialDelayMs { loop with started := true })
  | .fire handle =>
      if loop.microtasks = [] ∧ handle ∈ loop.timeouts.map Prod.fst then
        some (fire handle loop)
      else none
  | .settle tick result =>
      if tick ∈ loop.inFlight then some (settle tick result loop)
      else none
  | .run microtask =>
      if microtask ∈ loop.microtasks then
        some (runMicrotask microtask { loop with
          microtasks := loop.microtasks.erase microtask })
      else none
  | .stop => some (stop { loop with stopped := true })

section Invariant

/-- A microtask of `runTick`. -/
def Microtask.ofTick : Microtask → Bool
  | .resumeStop _ => false
  | _ => true

def EventLoop.tickMicrotasks (loop : EventLoop) : List Microtask :=
  loop.microtasks.filter Microtask.ofTick

/-- Where the last tick is: gone, in flight, settled with `runTick` still to go
on, or returned with `currentTick` still to be cleared. -/
inductive Phase (loop : EventLoop) : Prop where
  | idle
      (inFlight : loop.inFlight = [])
      (unfinished : loop.unfinished = [])
      (microtasks : loop.tickMicrotasks = [])
      (currentTick : loop.worker.currentTick = none)
  | flying
      (tick : Nat)
      (inFlight : loop.inFlight = [tick])
      (unfinished : loop.unfinished = [tick])
      (microtasks : loop.tickMicrotasks = [])
      (currentTick : loop.worker.currentTick = some tick)
      (timer : loop.worker.timer = none)
  | settled
      (tick : Nat)
      (result : TickResult)
      (inFlight : loop.inFlight = [])
      (unfinished : loop.unfinished = [tick])
      (microtasks : loop.tickMicrotasks = [.resume tick result])
      (currentTick : loop.worker.currentTick = some tick)
      (timer : loop.worker.timer = none)
  | returned
      (tick : Nat)
      (inFlight : loop.inFlight = [])
      (unfinished : loop.unfinished = [])
      (microtasks : loop.tickMicrotasks = [.finish tick])
      (currentTick : loop.worker.currentTick = some tick)

/-- What holds between any two events. -/
structure Consistent (loop : EventLoop) : Prop where
  phase : Phase loop
  timers : loop.timeouts.map Prod.fst = loop.worker.timer.toList
  armed : loop.worker.timer ≠ none → loop.worker.running = true
  live : loop.worker.running = true ↔
    loop.started = true ∧ loop.stopped = false
  unstarted : loop.started = false → loop.unfinished = []
  waits : loop.waiting ≠ [] → loop.stopped = true
  drained :
    (loop.resolved ≠ [] ∨ ∃ call, .resumeStop call ∈ loop.microtasks) →
      loop.stopped = true ∧ loop.unfinished = []

theorem consistent_initial : Consistent EventLoop.initial where
  phase := .idle rfl rfl rfl rfl
  timers := rfl
  armed := fun armed => absurd rfl armed
  live := by decide
  unstarted := fun _ => rfl
  waits := fun waits => absurd rfl waits
  drained := by
    rintro (resolved | ⟨call, member⟩)
    · exact absurd rfl resolved
    · cases member

variable {loop : EventLoop}

/-- The one timeout there is belongs to the timer of the worker. -/
theorem Consistent.timeouts_eq_nil
    (consistent : Consistent loop)
    (clear : loop.worker.timer = none) :
    loop.timeouts = [] := by
  have timers := consistent.timers
  rw [clear] at timers
  exact List.map_eq_nil_iff.mp timers

theorem Consistent.timer_of_mem
    (consistent : Consistent loop)
    {handle : Nat}
    (member : handle ∈ loop.timeouts.map Prod.fst) :
    loop.worker.timer = some handle := by
  rw [consistent.timers, Option.mem_toList] at member
  exact member

theorem Consistent.without_timer
    (consistent : Consistent loop)
    {handle : Nat}
    (timer : loop.worker.timer = some handle) :
    without handle loop.timeouts = [] := by
  have timers := consistent.timers
  rw [timer] at timers
  apply List.filter_eq_nil_iff.mpr
  intro timeout member
  have isHandle := List.mem_map_of_mem (f := Prod.fst) member
  rw [timers, Option.toList_some, List.mem_singleton] at isHandle
  simp [isHandle]

theorem Consistent.timer_of_halted
    (consistent : Consistent loop)
    (halted : loop.worker.running = false) :
    loop.worker.timer = none := by
  by_contra armed
  rw [consistent.armed armed] at halted
  cases halted

theorem start_kept
    (initialDelayMs : Nat)
    (consistent : Consistent loop)
    (unstarted : loop.started = false)
    (unstopped : loop.stopped = false) :
    Consistent (start initialDelayMs { loop with started := true }) := by
  have halted : loop.worker.running = false := by
    by_contra running
    rw [Bool.not_eq_false] at running
    rw [(consistent.live.mp running).1] at unstarted
    cases unstarted
  have clear := consistent.timer_of_halted halted
  have none := consistent.timeouts_eq_nil clear
  have unfinished := consistent.unstarted unstarted
  simp only [start, schedule, halted, Bool.false_eq_true, if_false, if_true,
    none, List.nil_append]
  exact {
    phase := by
      cases consistent.phase with
      | idle inFlight unfinished microtasks currentTick =>
          exact .idle inFlight unfinished microtasks currentTick
      | flying tick _ isUnfinished =>
          rw [unfinished] at isUnfinished
          cases isUnfinished
      | settled tick result _ isUnfinished =>
          rw [unfinished] at isUnfinished
          cases isUnfinished
      | returned tick inFlight unfinished microtasks currentTick =>
          exact .returned tick inFlight unfinished microtasks currentTick
    timers := rfl
    armed := fun _ => rfl
    live := ⟨fun _ => ⟨rfl, unstopped⟩, fun _ => rfl⟩
    unstarted := fun _ => unfinished
    waits := consistent.waits
    drained := consistent.drained }

/-- A timeout fires on an idle worker. -/
theorem Consistent.idle_of_due
    (consistent : Consistent loop)
    {handle : Nat}
    (timer : loop.worker.timer = some handle)
    (quiet : loop.microtasks = []) :
    loop.inFlight = [] ∧ loop.unfinished = [] := by
  have noMicrotasks : loop.tickMicrotasks = [] := by
    rw [EventLoop.tickMicrotasks, quiet]
    rfl
  cases consistent.phase with
  | idle inFlight unfinished =>
      exact ⟨inFlight, unfinished⟩
  | flying tick _ _ _ _ clear =>
      rw [timer] at clear
      cases clear
  | settled tick result _ _ _ _ clear =>
      rw [timer] at clear
      cases clear
  | returned tick _ _ microtasks =>
      rw [noMicrotasks] at microtasks
      cases microtasks

theorem fire_kept
    {handle : Nat}
    (consistent : Consistent loop)
    (quiet : loop.microtasks = [])
    (due : handle ∈ loop.timeouts.map Prod.fst) :
    Consistent (fire handle loop) := by
  have timer := consistent.timer_of_mem due
  have running : loop.worker.running = true :=
    consistent.armed (by rw [timer]; exact Option.some_ne_none handle)
  obtain ⟨inFlight, unfinished⟩ := consistent.idle_of_due timer quiet
  have unstopped := (consistent.live.mp running).2
  simp only [fire, running, if_true, inFlight, unfinished,
    consistent.without_timer timer, List.nil_append]
  exact {
    phase := .flying loop.ticks rfl rfl
      (by rw [EventLoop.tickMicrotasks, quiet]; rfl) rfl rfl
    timers := rfl
    armed := fun armed => absurd rfl armed
    live := ⟨fun _ => consistent.live.mp running, fun _ => rfl⟩
    unstarted := fun unstarted => by
      rw [(consistent.live.mp running).1] at unstarted
      cases unstarted
    waits := consistent.waits
    drained := fun resolved => by
      have stopped := (consistent.drained resolved).1
      rw [unstopped] at stopped
      cases stopped }

theorem settle_kept
    {tick : Nat}
    (result : TickResult)
    (consistent : Consistent loop)
    (inFlight : tick ∈ loop.inFlight) :
    Consistent (settle tick result loop) where
  phase := by
    cases consistent.phase with
    | idle empty =>
        rw [empty] at inFlight
        cases inFlight
    | flying current isFlying unfinished microtasks currentTick timer =>
        rw [isFlying, List.mem_singleton] at inFlight
        subst inFlight
        refine .settled tick result ?_ unfinished ?_ currentTick timer
        · simp [settle, isFlying]
        · rw [EventLoop.tickMicrotasks] at microtasks
          rw [EventLoop.tickMicrotasks, settle, List.filter_append,
            microtasks]
          rfl
    | settled current result empty =>
        rw [empty] at inFlight
        cases inFlight
    | returned current empty =>
        rw [empty] at inFlight
        cases inFlight
  timers := consistent.timers
  armed := consistent.armed
  live := consistent.live
  unstarted := consistent.unstarted
  waits := consistent.waits
  drained := by
    rintro (resolved | ⟨call, member⟩)
    · exact consistent.drained (.inl resolved)
    · simp only [settle, List.mem_append, List.mem_singleton,
        reduceCtorEq, or_false] at member
      exact consistent.drained (.inr ⟨call, member⟩)

/-- The microtasks of `runTick` when one of them is taken. -/
theorem tickMicrotasks_erase
    (microtask : Microtask) :
    EventLoop.tickMicrotasks { loop with
        microtasks := loop.microtasks.erase microtask } =
      loop.tickMicrotasks.erase microtask :=
  List.erase_filter.symm

/-- The microtask that makes `runTick` go on is there when it is settled. -/
theorem Consistent.settled_of_mem
    (consistent : Consistent loop)
    {tick : Nat}
    {result : TickResult}
    (member : .resume tick result ∈ loop.microtasks) :
    loop.inFlight = [] ∧ loop.unfinished = [tick] ∧
      loop.tickMicrotasks = [.resume tick result] ∧
      loop.worker.currentTick = some tick ∧
      loop.worker.timer = none := by
  have isTick : .resume tick result ∈ loop.tickMicrotasks :=
    List.mem_filter.mpr ⟨member, rfl⟩
  cases consistent.phase with
  | idle _ _ microtasks =>
      rw [microtasks] at isTick
      cases isTick
  | flying _ _ _ microtasks =>
      rw [microtasks] at isTick
      cases isTick
  | settled current settled inFlight unfinished microtasks currentTick
      timer =>
      rw [microtasks, List.mem_singleton] at isTick
      cases isTick
      exact ⟨inFlight, unfinished, microtasks, currentTick, timer⟩
  | returned _ _ _ microtasks =>
      rw [microtasks, List.mem_singleton] at isTick
      cases isTick

/-- `runTick` schedules the next tick or nothing. -/
inductive Rescheduled (loop : EventLoop) : EventLoop → Prop where
  | nothing : Rescheduled loop loop
  | next
      (delayMs : Nat)
      (running : loop.worker.running = true) :
      Rescheduled loop { loop with
        worker := { loop.worker with timer := some loop.handles }
        timeouts := loop.timeouts ++ [(loop.handles, delayMs)]
        handles := loop.handles + 1 }

theorem rescheduled_schedule
    (delayMs : Nat)
    (loop : EventLoop) :
    Rescheduled loop (schedule delayMs loop) := by
  unfold schedule
  split
  · rename_i running
    exact .next delayMs running
  · exact .nothing

theorem resumeTick_eq
    (tick : Nat)
    (result : TickResult)
    (loop : EventLoop) :
    ∃ middle, Rescheduled loop middle ∧
      resumeTick tick result loop = returnTick tick middle := by
  cases result with
  | delay delayMs => exact ⟨_, rescheduled_schedule delayMs loop, rfl⟩
  | null => exact ⟨loop, .nothing, rfl⟩
  | rejected =>
      refine ⟨if loop.worker.running then schedule 1000 loop else loop,
        ?_, rfl⟩
      split
      · exact rescheduled_schedule 1000 loop
      · exact .nothing

/-- What scheduling leaves alone, and that it keeps the timers. -/
theorem Rescheduled.spec
    {middle : EventLoop}
    (rescheduled : Rescheduled loop middle)
    (clear : loop.worker.timer = none)
    (empty : loop.timeouts = []) :
    middle.timeouts.map Prod.fst = middle.worker.timer.toList ∧
      (middle.worker.timer ≠ none → middle.worker.running = true) ∧
      middle.worker.running = loop.worker.running ∧
      middle.worker.currentTick = loop.worker.currentTick ∧
      middle.started = loop.started ∧ middle.stopped = loop.stopped ∧
      middle.inFlight = loop.inFlight ∧
      middle.unfinished = loop.unfinished ∧
      middle.waiting = loop.waiting ∧
      middle.microtasks = loop.microtasks ∧
      middle.resolved = loop.resolved ∧
      middle.ticks = loop.ticks := by
  cases rescheduled with
  | nothing => simp [clear, empty]
  | next delayMs running => simp [empty, running]

theorem resume_kept
    {tick : Nat}
    {result : TickResult}
    (consistent : Consistent loop)
    (member : .resume tick result ∈ loop.microtasks) :
    Consistent (resumeTick tick result { loop with
      microtasks := loop.microtasks.erase (.resume tick result) }) := by
  obtain ⟨inFlight, unfinished, microtasks, currentTick, clear⟩ :=
    consistent.settled_of_mem member
  obtain ⟨middle, rescheduled, isMiddle⟩ :=
    resumeTick_eq tick result { loop with
      microtasks := loop.microtasks.erase (.resume tick result) }
  obtain ⟨timers, armed, sameRunning, sameCurrent, sameStarted, sameStopped,
    sameFlight, sameUnfinished, sameWaiting, sameMicrotasks, sameResolved,
    _⟩ := rescheduled.spec clear (consistent.timeouts_eq_nil clear)
  dsimp only at sameUnfinished sameWaiting sameMicrotasks sameResolved
  have noneLeft : middle.tickMicrotasks = [] := by
    have erased := @tickMicrotasks_erase loop (.resume tick result)
    rw [microtasks, List.erase_cons_head] at erased
    rw [EventLoop.tickMicrotasks, sameMicrotasks]
    exact erased
  have returned : (returnTick tick middle).unfinished = [] := by
    simp [returnTick, sameUnfinished, unfinished]
  rw [isMiddle]
  exact {
    phase := by
      refine .returned tick ?_ returned ?_ ?_
      · exact sameFlight.trans inFlight
      · rw [EventLoop.tickMicrotasks] at noneLeft
        rw [EventLoop.tickMicrotasks, returnTick, List.filter_append,
          noneLeft, List.nil_append]
        rw [List.filter_cons_of_pos rfl, List.filter_eq_nil_iff.mpr]
        intro microtask woken
        obtain ⟨wait, _, rfl⟩ := List.mem_map.mp woken
        exact Bool.false_ne_true
      · exact sameCurrent.trans currentTick
    timers := timers
    armed := armed
    live := by
      change middle.worker.running = true ↔
        middle.started = true ∧ middle.stopped = false
      rw [sameRunning, sameStarted, sameStopped]
      exact consistent.live
    unstarted := fun _ => returned
    waits := by
      intro waits
      refine sameStopped.trans (consistent.waits ?_)
      intro none
      apply waits
      simp [returnTick, sameWaiting, none]
    drained := by
      intro resolved
      refine ⟨?_, returned⟩
      refine sameStopped.trans ?_
      rcases resolved with resolved | ⟨call, woken⟩
      · exact (consistent.drained (.inl (sameResolved ▸ resolved))).1
      · simp only [returnTick, List.mem_append, List.mem_cons,
          reduceCtorEq, false_or, List.mem_map] at woken
        rcases woken with old | ⟨wait, isWaiting, _⟩
        · rw [sameMicrotasks] at old
          exact (consistent.drained
            (.inr ⟨call, List.mem_of_mem_erase old⟩)).1
        · rw [sameWaiting] at isWaiting
          exact consistent.waits
            (List.ne_nil_of_mem (List.mem_of_mem_filter isWaiting)) }

theorem finish_kept
    {tick : Nat}
    (consistent : Consistent loop)
    (member : .finish tick ∈ loop.microtasks) :
    Consistent (runMicrotask (.finish tick) { loop with
      microtasks := loop.microtasks.erase (.finish tick) }) where
  phase := by
    have isTick : .finish tick ∈ loop.tickMicrotasks :=
      List.mem_filter.mpr ⟨member, rfl⟩
    cases consistent.phase with
    | idle _ _ microtasks =>
        rw [microtasks] at isTick
        cases isTick
    | flying _ _ _ microtasks =>
        rw [microtasks] at isTick
        cases isTick
    | settled current result _ _ microtasks =>
        rw [microtasks, List.mem_singleton] at isTick
        cases isTick
    | returned current inFlight unfinished microtasks =>
        rw [microtasks, List.mem_singleton] at isTick
        cases isTick
        refine .idle inFlight unfinished ?_ rfl
        have erased := @tickMicrotasks_erase loop (.finish tick)
        rw [microtasks, List.erase_cons_head] at erased
        exact erased
  timers := consistent.timers
  armed := consistent.armed
  live := consistent.live
  unstarted := consistent.unstarted
  waits := consistent.waits
  drained := by
    rintro (resolved | ⟨call, left⟩)
    · exact consistent.drained (.inl resolved)
    · exact consistent.drained
        (.inr ⟨call, List.mem_of_mem_erase left⟩)

/-- A phase only looks at the microtasks of `runTick`. -/
theorem Phase.congr
    {other : EventLoop}
    (phase : Phase loop)
    (inFlight : other.inFlight = loop.inFlight)
    (unfinished : other.unfinished = loop.unfinished)
    (microtasks : other.tickMicrotasks = loop.tickMicrotasks)
    (currentTick : other.worker.currentTick = loop.worker.currentTick)
    (timer : loop.worker.timer = none → other.worker.timer = none) :
    Phase other := by
  cases phase with
  | idle isFlight isUnfinished areMicrotasks isCurrent =>
      exact .idle (inFlight.trans isFlight)
        (unfinished.trans isUnfinished) (microtasks.trans areMicrotasks)
        (currentTick.trans isCurrent)
  | flying tick isFlight isUnfinished areMicrotasks isCurrent clear =>
      exact .flying tick (inFlight.trans isFlight)
        (unfinished.trans isUnfinished) (microtasks.trans areMicrotasks)
        (currentTick.trans isCurrent) (timer clear)
  | settled tick result isFlight isUnfinished areMicrotasks isCurrent
      clear =>
      exact .settled tick result (inFlight.trans isFlight)
        (unfinished.trans isUnfinished) (microtasks.trans areMicrotasks)
        (currentTick.trans isCurrent) (timer clear)
  | returned tick isFlight isUnfinished areMicrotasks isCurrent =>
      exact .returned tick (inFlight.trans isFlight)
        (unfinished.trans isUnfinished) (microtasks.trans areMicrotasks)
        (currentTick.trans isCurrent)

theorem resumeStop_kept
    {call : Nat}
    (consistent : Consistent loop)
    (member : .resumeStop call ∈ loop.microtasks) :
    Consistent (runMicrotask (.resumeStop call) { loop with
      microtasks := loop.microtasks.erase (.resumeStop call) }) where
  phase := by
    refine consistent.phase.congr rfl rfl ?_ rfl id
    refine tickMicrotasks_erase (.resumeStop call) |>.trans ?_
    apply List.erase_of_not_mem
    intro isTick
    cases (List.mem_filter.mp isTick).2
  timers := consistent.timers
  armed := consistent.armed
  live := consistent.live
  unstarted := consistent.unstarted
  waits := consistent.waits
  drained := fun _ => consistent.drained (.inr ⟨call, member⟩)

/-- A tick that is current and not unfinished has returned. -/
theorem Phase.returned_of
    (phase : Phase loop)
    (done : ∀ tick, loop.worker.currentTick = some tick →
      tick ∉ loop.unfinished) :
    loop.unfinished = [] := by
  cases phase with
  | idle _ unfinished => exact unfinished
  | flying tick _ unfinished _ currentTick =>
      have notThere := done tick currentTick
      rw [unfinished] at notThere
      exact absurd (List.mem_singleton_self tick) notThere
  | settled tick result _ unfinished _ currentTick =>
      have notThere := done tick currentTick
      rw [unfinished] at notThere
      exact absurd (List.mem_singleton_self tick) notThere
  | returned tick _ unfinished => exact unfinished

/-- What `stop` clears and what it leaves, up to its `await`. -/
theorem Consistent.stop_spec
    (consistent : Consistent loop) :
    let after := stop { loop with stopped := true }
    after.worker =
        { loop.worker with running := false, timer := none } ∧
      after.timeouts = [] ∧
      after.started = loop.started ∧
      after.stopped = true ∧
      after.inFlight = loop.inFlight ∧
      after.unfinished = loop.unfinished ∧
      after.ticks = loop.ticks ∧
      after.tickMicrotasks = loop.tickMicrotasks ∧
      (∀ tick result, .resume tick result ∈ after.microtasks →
        .resume tick result ∈ loop.microtasks) ∧
      (loop.unfinished = [] ∨
        after.microtasks = loop.microtasks ∧
          after.resolved = loop.resolved) := by
  have cleared :
      (match loop.worker.timer with
        | none => loop.timeouts
        | some handle => without handle loop.timeouts) = [] := by
    cases timer : loop.worker.timer with
    | none => exact consistent.timeouts_eq_nil timer
    | some handle => exact consistent.without_timer timer
  unfold stop
  dsimp only
  rw [cleared]
  split
  · rename_i noTick
    refine ⟨rfl, rfl, rfl, rfl, rfl, rfl, rfl, rfl,
      fun _ _ member => member, .inl ?_⟩
    apply consistent.phase.returned_of
    intro tick isCurrent
    rw [noTick] at isCurrent
    cases isCurrent
  · rename_i current isCurrent
    split
    · exact ⟨rfl, rfl, rfl, rfl, rfl, rfl, rfl, rfl,
        fun _ _ member => member, .inr ⟨rfl, rfl⟩⟩
    · rename_i notThere
      refine ⟨rfl, rfl, rfl, rfl, rfl, rfl, rfl, ?_, ?_, .inl ?_⟩
      · simp only [EventLoop.tickMicrotasks, List.filter_append]
        exact List.append_nil _
      · intro tick result member
        simpa using member
      · apply consistent.phase.returned_of
        intro tick isTick
        rw [isCurrent] at isTick
        cases isTick
        exact notThere

theorem stop_kept
    (consistent : Consistent loop) :
    Consistent (stop { loop with stopped := true }) := by
  obtain ⟨worker, timeouts, started, stopped, inFlight, unfinished, _,
    microtasks, _, returned⟩ := consistent.stop_spec
  generalize stop { loop with stopped := true } = after at *
  exact {
    phase := by
      apply consistent.phase.congr inFlight unfinished microtasks
      · rw [worker]
      · rw [worker]
        exact fun _ => rfl
    timers := by
      rw [timeouts, worker]
      rfl
    armed := by
      rw [worker]
      exact fun armed => absurd rfl armed
    live := by
      rw [worker, stopped]
      simp
    unstarted := fun unstarted =>
      unfinished.trans (consistent.unstarted (started.symm.trans unstarted))
    waits := fun _ => stopped
    drained := by
      intro resolved
      refine ⟨stopped, unfinished.trans ?_⟩
      rcases returned with none | ⟨sameMicrotasks, sameResolved⟩
      · exact none
      · rw [sameMicrotasks, sameResolved] at resolved
        exact (consistent.drained resolved).2 }

/-- Every event keeps the worker consistent. -/
theorem consistent_step
    {event : Event}
    {next : EventLoop}
    (consistent : Consistent loop)
    (taken : step loop event = some next) :
    Consistent next := by
  cases event with
  | start initialDelayMs =>
      simp only [step, Option.ite_none_left_eq_some, not_or,
        Bool.not_eq_true, Option.some.injEq] at taken
      obtain ⟨⟨unstarted, unstopped⟩, rfl⟩ := taken
      exact start_kept initialDelayMs consistent unstarted unstopped
  | fire handle =>
      simp only [step, Option.ite_none_right_eq_some,
        Option.some.injEq] at taken
      obtain ⟨⟨quiet, due⟩, rfl⟩ := taken
      exact fire_kept consistent quiet due
  | settle tick result =>
      simp only [step, Option.ite_none_right_eq_some,
        Option.some.injEq] at taken
      obtain ⟨inFlight, rfl⟩ := taken
      exact settle_kept result consistent inFlight
  | run microtask =>
      simp only [step, Option.ite_none_right_eq_some,
        Option.some.injEq] at taken
      obtain ⟨member, rfl⟩ := taken
      cases microtask with
      | resume tick result => exact resume_kept consistent member
      | finish tick => exact finish_kept consistent member
      | resumeStop call => exact resumeStop_kept consistent member
  | stop =>
      simp only [step, Option.some.injEq] at taken
      subst taken
      exact stop_kept consistent

end Invariant

end Scheduler
end Bam
