import Bam.Poster.Scheduler

namespace Bam
namespace Scheduler

/-!
# Runs of the worker timer

What follows a stop, a tick that settles to `null` and a tick that is rejected,
each carried through the rest of a run by what its events keep.
-/

section Runs

variable {loop : EventLoop}

/-- What `runTick` leaves of a settled tick when it goes on: the ticks, and
one more timeout at most. -/
theorem Consistent.resumeTick_spec
    (consistent : Consistent loop)
    {tick : Nat}
    {result : TickResult}
    (member : .resume tick result ∈ loop.microtasks) :
    let after := resumeTick tick result { loop with
      microtasks := loop.microtasks.erase (.resume tick result) }
    after.ticks = loop.ticks ∧
      after.started = loop.started ∧
      after.stopped = loop.stopped ∧
      after.worker.running = loop.worker.running ∧
      after.inFlight = [] ∧
      (∀ other outcome, .resume other outcome ∉ after.microtasks) ∧
      (result = .null → after.timeouts = []) ∧
      (result = .rejected → loop.worker.running = true →
        after.timeouts = [(loop.handles, 1000)]) := by
  obtain ⟨inFlight, _, microtasks, _, clear⟩ :=
    consistent.settled_of_mem member
  have empty := consistent.timeouts_eq_nil clear
  obtain ⟨middle, rescheduled, isMiddle⟩ :=
    resumeTick_eq tick result { loop with
      microtasks := loop.microtasks.erase (.resume tick result) }
  obtain ⟨_, _, sameRunning, _, sameStarted, sameStopped, sameFlight, _, _,
    sameMicrotasks, _, sameTicks⟩ := rescheduled.spec clear empty
  dsimp only
  refine ⟨isMiddle ▸ sameTicks, isMiddle ▸ sameStarted,
    isMiddle ▸ sameStopped, isMiddle ▸ sameRunning,
    isMiddle ▸ sameFlight.trans inFlight, ?_, ?_, ?_⟩
  · intro other outcome left
    rw [isMiddle] at left
    simp only [returnTick, List.mem_append, List.mem_cons, reduceCtorEq,
      List.mem_map, and_false, exists_false, or_false] at left
    have isTick : .resume other outcome ∈ loop.tickMicrotasks.erase
        (.resume tick result) := by
      rw [← @tickMicrotasks_erase loop]
      rw [sameMicrotasks] at left
      exact List.mem_filter.mpr ⟨left, rfl⟩
    rw [microtasks, List.erase_cons_head] at isTick
    cases isTick
  · rintro rfl
    exact empty
  · rintro rfl running
    simp [resumeTick, returnTick, schedule, running, empty]

/-- A stopped worker that has started so many ticks. -/
structure Halted (ticks : Nat) (loop : EventLoop) : Prop where
  consistent : Consistent loop
  stopped : loop.stopped = true
  sameTicks : loop.ticks = ticks

theorem Halted.step
    {ticks : Nat}
    {event : Event}
    {next : EventLoop}
    (halted : Halted ticks loop)
    (taken : Scheduler.step loop event = some next) :
    Halted ticks next := by
  have consistent := halted.consistent
  have still : loop.worker.running = false := by
    by_contra running
    rw [Bool.not_eq_false] at running
    have live := (consistent.live.mp running).2
    rw [halted.stopped] at live
    cases live
  have kept := consistent_step consistent taken
  cases event with
  | start initialDelayMs =>
      simp [Scheduler.step, halted.stopped] at taken
  | fire handle =>
      simp only [Scheduler.step, Option.ite_none_right_eq_some] at taken
      have timer := consistent.timer_of_mem taken.1.2
      rw [consistent.timer_of_halted still] at timer
      cases timer
  | settle tick result =>
      simp only [Scheduler.step, Option.ite_none_right_eq_some,
        Option.some.injEq] at taken
      obtain ⟨_, rfl⟩ := taken
      exact ⟨kept, halted.stopped, halted.sameTicks⟩
  | run microtask =>
      simp only [Scheduler.step, Option.ite_none_right_eq_some,
        Option.some.injEq] at taken
      obtain ⟨member, rfl⟩ := taken
      cases microtask with
      | resume tick result =>
          obtain ⟨sameTicks, _, sameStopped, _⟩ :=
            consistent.resumeTick_spec member
          exact ⟨kept, sameStopped.trans halted.stopped,
            sameTicks.trans halted.sameTicks⟩
      | finish tick => exact ⟨kept, halted.stopped, halted.sameTicks⟩
      | resumeStop call => exact ⟨kept, halted.stopped, halted.sameTicks⟩
  | stop =>
      simp only [Scheduler.step, Option.some.injEq] at taken
      subst taken
      obtain ⟨_, _, _, stopped, _, _, sameTicks, _⟩ :=
        consistent.stop_spec
      exact ⟨kept, stopped, sameTicks.trans halted.sameTicks⟩

/-- A worker whose last tick settled to `null`. -/
structure Ended (ticks : Nat) (loop : EventLoop) : Prop where
  consistent : Consistent loop
  started : loop.started = true
  sameTicks : loop.ticks = ticks
  timeouts : loop.timeouts = []
  inFlight : loop.inFlight = []
  resumes : ∀ tick result,
    .resume tick result ∈ loop.microtasks → result = .null

theorem Ended.step
    {ticks : Nat}
    {event : Event}
    {next : EventLoop}
    (ended : Ended ticks loop)
    (taken : Scheduler.step loop event = some next) :
    Ended ticks next := by
  have consistent := ended.consistent
  have kept := consistent_step consistent taken
  cases event with
  | start initialDelayMs =>
      simp [Scheduler.step, ended.started] at taken
  | fire handle =>
      simp [Scheduler.step, ended.timeouts] at taken
  | settle tick result =>
      simp [Scheduler.step, ended.inFlight] at taken
  | run microtask =>
      simp only [Scheduler.step, Option.ite_none_right_eq_some,
        Option.some.injEq] at taken
      obtain ⟨member, rfl⟩ := taken
      have left : ∀ tick result,
          .resume tick result ∈ loop.microtasks.erase microtask →
            result = .null :=
        fun tick result there =>
          ended.resumes tick result (List.mem_of_mem_erase there)
      cases microtask with
      | resume tick result =>
          obtain ⟨sameTicks, sameStarted, _, _, inFlight, none, nothing, _⟩ :=
            consistent.resumeTick_spec member
          exact ⟨kept, sameStarted.trans ended.started,
            sameTicks.trans ended.sameTicks,
            nothing (ended.resumes tick result member), inFlight,
            fun other outcome there =>
              absurd there (none other outcome)⟩
      | finish tick =>
          exact ⟨kept, ended.started, ended.sameTicks, ended.timeouts,
            ended.inFlight, left⟩
      | resumeStop call =>
          exact ⟨kept, ended.started, ended.sameTicks, ended.timeouts,
            ended.inFlight, left⟩
  | stop =>
      simp only [Scheduler.step, Option.some.injEq] at taken
      subst taken
      obtain ⟨_, timeouts, started, _, inFlight, _, sameTicks, _, resumes,
        _⟩ := consistent.stop_spec
      exact ⟨kept, started.trans ended.started,
        sameTicks.trans ended.sameTicks, timeouts,
        inFlight.trans ended.inFlight,
        fun tick result there =>
          ended.resumes tick result (resumes tick result there)⟩

/-- A running worker after a rejected tick: another tick has started since, or
`runTick` is still to go on, or a timeout of a second is pending. -/
structure Follows (ticks : Nat) (loop : EventLoop) : Prop where
  consistent : Consistent loop
  running : loop.worker.running = true
  next :
    ticks < loop.ticks ∨
      loop.ticks = ticks ∧
        ((∃ tick, .resume tick .rejected ∈ loop.microtasks) ∨
          ∃ handle, (handle, 1000) ∈ loop.timeouts)

theorem Follows.step
    {ticks : Nat}
    {event : Event}
    {next : EventLoop}
    (follows : Follows ticks loop)
    (taken : Scheduler.step loop event = some next)
    (goesOn : event ≠ .stop) :
    Follows ticks next := by
  have consistent := follows.consistent
  have kept := consistent_step consistent taken
  cases event with
  | start initialDelayMs =>
      simp [Scheduler.step, (consistent.live.mp follows.running).1] at taken
  | fire handle =>
      simp only [Scheduler.step, Option.ite_none_right_eq_some,
        Option.some.injEq] at taken
      obtain ⟨_, rfl⟩ := taken
      have grown : ticks ≤ loop.ticks := by
        rcases follows.next with more | ⟨same, _⟩
        · exact Nat.le_of_lt more
        · exact Nat.le_of_eq same.symm
      refine ⟨kept, ?_, .inl ?_⟩
      · simp [fire, follows.running]
      · simp only [fire, follows.running, if_true]
        exact Nat.lt_succ_of_le grown
  | settle tick result =>
      simp only [Scheduler.step, Option.ite_none_right_eq_some,
        Option.some.injEq] at taken
      obtain ⟨_, rfl⟩ := taken
      refine ⟨kept, follows.running, ?_⟩
      rcases follows.next with more | ⟨same, ⟨other, member⟩ | due⟩
      · exact .inl more
      · exact .inr ⟨same, .inl ⟨other, List.mem_append_left _ member⟩⟩
      · exact .inr ⟨same, .inr due⟩
  | run microtask =>
      simp only [Scheduler.step, Option.ite_none_right_eq_some,
        Option.some.injEq] at taken
      obtain ⟨member, rfl⟩ := taken
      cases microtask with
      | resume tick result =>
          obtain ⟨sameTicks, _, _, sameRunning, _, _, _, again⟩ :=
            consistent.resumeTick_spec member
          refine ⟨kept, sameRunning.trans follows.running, ?_⟩
          rcases follows.next with more | ⟨same, ⟨other, there⟩ | due⟩
          · exact .inl (sameTicks.symm ▸ more)
          · have isTick : .resume other .rejected ∈ loop.tickMicrotasks :=
              List.mem_filter.mpr ⟨there, rfl⟩
            obtain ⟨_, _, microtasks, _⟩ :=
              consistent.settled_of_mem member
            rw [microtasks, List.mem_singleton] at isTick
            cases isTick
            refine .inr ⟨sameTicks.trans same, .inr ⟨loop.handles, ?_⟩⟩
            have timeouts := again rfl follows.running
            exact timeouts ▸ List.mem_singleton_self _
          · obtain ⟨handle, due⟩ := due
            obtain ⟨_, _, _, _, clear⟩ := consistent.settled_of_mem member
            rw [consistent.timeouts_eq_nil clear] at due
            cases due
      | finish tick =>
          refine ⟨kept, follows.running, ?_⟩
          rcases follows.next with more | ⟨same, ⟨other, there⟩ | due⟩
          · exact .inl more
          · refine .inr ⟨same, .inl ⟨other, ?_⟩⟩
            exact (List.mem_erase_of_ne (by simp)).mpr there
          · exact .inr ⟨same, .inr due⟩
      | resumeStop call =>
          refine ⟨kept, follows.running, ?_⟩
          rcases follows.next with more | ⟨same, ⟨other, there⟩ | due⟩
          · exact .inl more
          · refine .inr ⟨same, .inl ⟨other, ?_⟩⟩
            exact (List.mem_erase_of_ne (by simp)).mpr there
          · exact .inr ⟨same, .inr due⟩
  | stop => exact absurd rfl goesOn

/-- A tick that settles is the current one, with no timeout pending. -/
theorem Consistent.flying_of_mem
    (consistent : Consistent loop)
    {tick : Nat}
    (inFlight : tick ∈ loop.inFlight) :
    loop.inFlight = [tick] ∧ loop.started = true ∧
      loop.timeouts = [] ∧ loop.tickMicrotasks = [] := by
  cases consistent.phase with
  | idle none =>
      rw [none] at inFlight
      cases inFlight
  | flying current isFlying unfinished microtasks _ timer =>
      rw [isFlying, List.mem_singleton] at inFlight
      subst inFlight
      refine ⟨isFlying, ?_, consistent.timeouts_eq_nil timer, microtasks⟩
      by_contra unstarted
      rw [Bool.not_eq_true] at unstarted
      rw [consistent.unstarted unstarted] at unfinished
      cases unfinished
  | settled current result none =>
      rw [none] at inFlight
      cases inFlight
  | returned current none =>
      rw [none] at inFlight
      cases inFlight

theorem halted_stop
    (consistent : Consistent loop) :
    Halted loop.ticks (stop { loop with stopped := true }) := by
  obtain ⟨_, _, _, stopped, _, _, sameTicks, _⟩ := consistent.stop_spec
  exact ⟨stop_kept consistent, stopped, sameTicks⟩

theorem ended_settle
    (consistent : Consistent loop)
    {tick : Nat}
    (inFlight : tick ∈ loop.inFlight) :
    Ended loop.ticks (settle tick .null loop) := by
  obtain ⟨single, started, timeouts, microtasks⟩ :=
    consistent.flying_of_mem inFlight
  refine ⟨settle_kept .null consistent inFlight, started, rfl, timeouts,
    ?_, ?_⟩
  · simp [settle, single]
  · intro other result member
    have isTick :
        .resume other result ∈ (settle tick .null loop).tickMicrotasks :=
      List.mem_filter.mpr ⟨member, rfl⟩
    have left :
        (settle tick .null loop).tickMicrotasks = [.resume tick .null] := by
      rw [EventLoop.tickMicrotasks] at microtasks
      rw [EventLoop.tickMicrotasks, settle, List.filter_append, microtasks]
      rfl
    rw [left, List.mem_singleton] at isTick
    cases isTick
    rfl

theorem follows_settle
    (consistent : Consistent loop)
    (unstopped : loop.stopped = false)
    {tick : Nat}
    (inFlight : tick ∈ loop.inFlight) :
    Follows loop.ticks (settle tick .rejected loop) := by
  have started := (consistent.flying_of_mem inFlight).2.1
  refine ⟨settle_kept .rejected consistent inFlight,
    consistent.live.mpr ⟨started, unstopped⟩, .inr ⟨rfl, .inl ⟨tick, ?_⟩⟩⟩
  simp [settle]

/-- Only `stop` stops. -/
theorem stopped_step
    {event : Event}
    {next : EventLoop}
    (consistent : Consistent loop)
    (taken : step loop event = some next)
    (goesOn : event ≠ .stop) :
    next.stopped = loop.stopped := by
  cases event with
  | start initialDelayMs =>
      simp only [step, Option.ite_none_left_eq_some,
        Option.some.injEq] at taken
      obtain ⟨_, rfl⟩ := taken
      unfold start schedule
      split
      · rfl
      · rfl
  | fire handle =>
      simp only [step, Option.ite_none_right_eq_some,
        Option.some.injEq] at taken
      obtain ⟨_, rfl⟩ := taken
      unfold fire
      split <;> rfl
  | settle tick result =>
      simp only [step, Option.ite_none_right_eq_some,
        Option.some.injEq] at taken
      obtain ⟨_, rfl⟩ := taken
      rfl
  | run microtask =>
      simp only [step, Option.ite_none_right_eq_some,
        Option.some.injEq] at taken
      obtain ⟨member, rfl⟩ := taken
      cases microtask with
      | resume tick result =>
          exact (consistent.resumeTick_spec member).2.2.1
      | finish tick => rfl
      | resumeStop call => rfl
  | stop => exact absurd rfl goesOn

end Runs

/-- What the Poster relies on, of a run of events and the loop it ends in. -/
structure Reliable
    (events : List Event)
    (loop : EventLoop) : Prop where
  /-- At most one tick is in flight. -/
  single : loop.inFlight.length ≤ 1
  /-- Where a call of `stop` has resolved, every tick has finished. -/
  drained : loop.resolved ≠ [] → loop.inFlight = [] ∧ loop.unfinished = []
  /-- No tick starts after a call of `stop`. -/
  halted : ∀ before after middle,
    events = before ++ .stop :: after →
    Runs.exec? step EventLoop.initial before = some middle →
    loop.ticks = middle.ticks
  /-- No tick is scheduled after one that settled to `null`. -/
  ended : ∀ before after tick middle,
    events = before ++ .settle tick .null :: after →
    Runs.exec? step EventLoop.initial before = some middle →
    loop.timeouts = [] ∧ loop.ticks = middle.ticks
  /-- Once the microtasks of a rejected tick have run, the next tick is
  scheduled or has started, unless `stop` is called. -/
  follows : ∀ before after tick middle,
    events = before ++ .settle tick .rejected :: after →
    .stop ∉ events →
    Runs.exec? step EventLoop.initial before = some middle →
    loop.microtasks = [] →
    middle.ticks < loop.ticks ∨ ∃ handle, (handle, 1000) ∈ loop.timeouts
  /-- Nothing keeps a microtask from running. -/
  runs : ∀ microtask ∈ loop.microtasks,
    (step loop (.run microtask)).isSome = true
  /-- A scheduled tick starts when its timeout fires. -/
  fires : ∀ timeout ∈ loop.timeouts,
    loop.microtasks = [] →
    ∃ next, step loop (.fire timeout.1) = some next ∧
      next.ticks = loop.ticks + 1 ∧ next.inFlight = [loop.ticks]

/-- A run that passes an event: the loop before it, and the rest of the run
from the loop after it. -/
theorem passes_of_exec
    {before after : List Event}
    {event : Event}
    {middle loop : EventLoop}
    (executed :
      Runs.exec? step EventLoop.initial (before ++ event :: after) =
        some loop)
    (reached :
      Runs.exec? step EventLoop.initial before = some middle) :
    Consistent middle ∧
      ∃ next, step middle event = some next ∧
        Runs.exec? step next after = some loop := by
  rw [Runs.exec?_append, reached, Option.bind_some, Runs.exec?] at executed
  refine ⟨Runs.exec?_invariant
    (fun consistent _ taken => consistent_step consistent taken)
    consistent_initial reached, ?_⟩
  cases taken : step middle event with
  | none =>
      rw [taken] at executed
      cases executed
  | some next =>
      rw [taken] at executed
      exact ⟨next, rfl, executed⟩

/-- Every run of a worker, with its timers, ticks, microtasks and calls of
`stop` in any order. -/
theorem workerTimer_reliable
    {events : List Event}
    {loop : EventLoop}
    (executed : Runs.exec? step EventLoop.initial events = some loop) :
    Reliable events loop := by
  have consistent : Consistent loop :=
    Runs.exec?_invariant
      (fun consistent _ taken => consistent_step consistent taken)
      consistent_initial executed
  have finished : loop.unfinished = [] → loop.inFlight = [] := by
    intro none
    cases consistent.phase with
    | idle inFlight => exact inFlight
    | flying tick _ unfinished =>
        rw [none] at unfinished
        cases unfinished
    | settled tick result inFlight => exact inFlight
    | returned tick inFlight => exact inFlight
  constructor
  case single =>
    cases consistent.phase with
    | idle inFlight => simp [inFlight]
    | flying tick inFlight => simp [inFlight]
    | settled tick result inFlight => simp [inFlight]
    | returned tick inFlight => simp [inFlight]
  case drained =>
    intro resolved
    have unfinished := (consistent.drained (.inl resolved)).2
    exact ⟨finished unfinished, unfinished⟩
  case halted =>
    rintro before after middle rfl reached
    obtain ⟨reachable, next, taken, rest⟩ := passes_of_exec executed reached
    simp only [step, Option.some.injEq] at taken
    subst taken
    exact (Runs.exec?_invariant (fun halted _ taken => halted.step taken)
      (halted_stop reachable) rest).sameTicks
  case ended =>
    rintro before after tick middle rfl reached
    obtain ⟨reachable, next, taken, rest⟩ := passes_of_exec executed reached
    simp only [step, Option.ite_none_right_eq_some,
      Option.some.injEq] at taken
    obtain ⟨inFlight, rfl⟩ := taken
    have ended := Runs.exec?_invariant
      (fun ended _ taken => ended.step taken)
      (ended_settle reachable inFlight) rest
    exact ⟨ended.timeouts, ended.sameTicks⟩
  case follows =>
    rintro before after tick middle rfl goesOn reached quiet
    obtain ⟨reachable, next, taken, rest⟩ := passes_of_exec executed reached
    simp only [step, Option.ite_none_right_eq_some,
      Option.some.injEq] at taken
    obtain ⟨inFlight, rfl⟩ := taken
    have unstopped : Consistent middle ∧ middle.stopped = false :=
      @Runs.exec?_invariant _ _ step
        (fun loop => Consistent loop ∧ loop.stopped = false) before
        (fun holds member taken =>
          ⟨consistent_step holds.1 taken,
            (stopped_step holds.1 taken fun stops =>
              goesOn (stops ▸ List.mem_append_left _ member)).trans
              holds.2⟩)
        _ _ ⟨consistent_initial, rfl⟩ reached
    have follows := Runs.exec?_invariant
      (fun follows member taken => Follows.step follows taken fun stops =>
        goesOn (stops ▸ List.mem_append_right _
          (List.mem_cons_of_mem _ member)))
      (follows_settle reachable unstopped.2 inFlight) rest
    rcases follows.next with more | ⟨_, ⟨other, member⟩ | due⟩
    · exact .inl more
    · rw [quiet] at member
      cases member
    · exact .inr due
  case runs =>
    intro microtask member
    simp [step, member]
  case fires =>
    intro timeout pending quiet
    have due := List.mem_map_of_mem (f := Prod.fst) pending
    have timer := consistent.timer_of_mem due
    have running : loop.worker.running = true :=
      consistent.armed (by rw [timer]; exact Option.some_ne_none _)
    obtain ⟨inFlight, _⟩ := consistent.idle_of_due timer quiet
    refine ⟨fire timeout.1 loop, if_pos ⟨quiet, due⟩, ?_, ?_⟩
    · simp [fire, running]
    · simp [fire, running, inFlight]

/-- A rejected tick, the next one a second later, and a stop while that one is
in flight. -/
def sampleEvents : List Event :=
  [.start 0, .fire 0, .settle 0 .rejected, .run (.resume 0 .rejected),
    .run (.finish 0), .fire 1, .stop, .settle 1 (.delay 0),
    .run (.resume 1 (.delay 0)), .run (.resumeStop 0), .run (.finish 1)]

theorem workerTimer_reliable_sample :
    ∃ loop, Runs.exec? step EventLoop.initial sampleEvents = some loop ∧
      loop.resolved = [0] ∧ loop.ticks = 2 ∧
      Reliable sampleEvents loop := by
  cases executed : Runs.exec? step EventLoop.initial sampleEvents with
  | none =>
      have ends :
          (Runs.exec? step EventLoop.initial sampleEvents).isSome := by
        decide
      rw [executed] at ends
      cases ends
  | some loop =>
      have shown :
          (Runs.exec? step EventLoop.initial sampleEvents).map
              (fun loop => (loop.resolved, loop.ticks)) =
            some ([0], 2) := by
        decide
      rw [executed] at shown
      obtain ⟨resolved, ticks⟩ := Prod.mk.inj (Option.some.inj shown)
      exact ⟨loop, rfl, resolved, ticks, workerTimer_reliable executed⟩

end Scheduler
end Bam
