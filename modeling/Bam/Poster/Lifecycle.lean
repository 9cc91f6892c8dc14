import Bam.Poster.SchedulerRuns
import Bam.Sdk.Types

namespace Bam

/-!
# The Posters of a process

`createPoster` refuses a signer that another Poster of the process has.  A
Poster runs two workers between `start` and `stop`, and `stop` gives the signer
back once both have drained.  Calls of different Posters and the events of their
workers come in any order.
-/

/-- A call of `createPoster` that got past the registry, and the Poster it
returns. -/
structure PosterInstance where
  signer : Address
  /-- `createPoster` has returned. -/
  built : Bool
  /-- `createPoster` has thrown. -/
  failed : Bool
  started : Bool
  stopped : Bool
  /-- `stop` has gone on to close the store. -/
  released : Bool
  aggregatorWorker : Scheduler.EventLoop
  reorgWorker : Scheduler.EventLoop
  deriving DecidableEq

structure PosterProcess where
  signerRegistry : List Address
  instances : List PosterInstance
  deriving DecidableEq

def PosterProcess.initial : PosterProcess where
  signerRegistry := []
  instances := []

inductive ProcessEvent where
  | createPoster (signer : Address)
  /-- The rest of `createPoster`: it returns or throws. -/
  | construct (index : Nat) (ok : Bool)
  | start (index reorgPollMs : Nat)
  | stop (index : Nat)
  /-- The rest of `stop`. -/
  | release (index : Nat)
  | aggregator (index : Nat) (event : Scheduler.Event)
  | reorg (index : Nat) (event : Scheduler.Event)

/-- An event of the event loop, and no call of the Poster. -/
def ofLoop : Scheduler.Event → Bool
  | .start _ => false
  | .stop => false
  | _ => true

namespace PosterInstance

/-- The start of `createPoster`. -/
def create (signer : Address) : PosterInstance where
  signer := signer
  built := false
  failed := false
  started := false
  stopped := false
  released := false
  aggregatorWorker := .initial
  reorgWorker := .initial

/-- `start`; it throws on a stopped Poster. -/
def start
    (reorgPollMs : Nat)
    (poster : PosterInstance) : PosterInstance :=
  if poster.stopped ∨ poster.started then poster
  else
    { poster with
      started := true
      aggregatorWorker :=
        Scheduler.start 0 { poster.aggregatorWorker with started := true }
      reorgWorker :=
        Scheduler.start reorgPollMs
          { poster.reorgWorker with started := true } }

/-- `stop`, up to its `await`. -/
def stop (poster : PosterInstance) : PosterInstance :=
  if poster.stopped then poster
  else
    { poster with
      started := false
      stopped := true
      aggregatorWorker :=
        Scheduler.stop { poster.aggregatorWorker with stopped := true }
      reorgWorker :=
        Scheduler.stop { poster.reorgWorker with stopped := true } }

/-- Both calls of `stop` of the workers have resolved. -/
def Drained (poster : PosterInstance) : Prop :=
  poster.aggregatorWorker.resolved ≠ [] ∧ poster.reorgWorker.resolved ≠ []

instance (poster : PosterInstance) : Decidable poster.Drained :=
  inferInstanceAs (Decidable (_ ∧ _))

end PosterInstance

namespace PosterProcess

/-- A Poster that changes. -/
def put
    (process : PosterProcess)
    (index : Nat)
    (poster : PosterInstance) : PosterProcess :=
  { process with instances := process.instances.set index poster }

/-- `signerRegistry.delete`. -/
def delete
    (process : PosterProcess)
    (signer : Address) : PosterProcess :=
  { process with
    signerRegistry :=
      process.signerRegistry.filter fun other => other ≠ signer }

end PosterProcess

def processStep (process : PosterProcess) :
    ProcessEvent → Option PosterProcess
  | .createPoster signer =>
      if process.signerRegistry.contains signer then some process
      else
        some {
          signerRegistry := process.signerRegistry ++ [signer]
          instances := process.instances ++ [.create signer] }
  | .construct index ok =>
      match process.instances[index]? with
      | none => none
      | some poster =>
          if poster.built ∨ poster.failed then none
          else if ok then
            some (process.put index { poster with built := true })
          else
            some ((process.put index { poster with failed := true }).delete
              poster.signer)
  | .start index reorgPollMs =>
      match process.instances[index]? with
      | none => none
      | some poster =>
          if poster.built then
            some (process.put index (poster.start reorgPollMs))
          else none
  | .stop index =>
      match process.instances[index]? with
      | none => none
      | some poster =>
          if poster.built then some (process.put index poster.stop)
          else none
  | .release index =>
      match process.instances[index]? with
      | none => none
      | some poster =>
          if poster.stopped ∧ ¬poster.released ∧ poster.Drained then
            some ((process.put index { poster with released := true }).delete
              poster.signer)
          else none
  | .aggregator index event =>
      match process.instances[index]? with
      | none => none
      | some poster =>
          if ofLoop event then
            (Scheduler.step poster.aggregatorWorker event).map fun worker =>
              process.put index { poster with aggregatorWorker := worker }
          else none
  | .reorg index event =>
      match process.instances[index]? with
      | none => none
      | some poster =>
          if ofLoop event then
            (Scheduler.step poster.reorgWorker event).map fun worker =>
              process.put index { poster with reorgWorker := worker }
          else none

namespace PosterInstance

/-- The signer of the Poster is its own: `createPoster` has not thrown, and
`stop` has not given it back. -/
def Live (poster : PosterInstance) : Prop :=
  poster.failed = false ∧ poster.released = false

/-- What holds of every Poster. -/
structure Sound (poster : PosterInstance) : Prop where
  aggregator : Scheduler.Consistent poster.aggregatorWorker
  reorg : Scheduler.Consistent poster.reorgWorker
  fresh :
    poster.started = false →
    poster.stopped = false →
    poster.aggregatorWorker.started = false ∧
      poster.reorgWorker.started = false
  unstopped :
    poster.stopped = false →
    poster.aggregatorWorker.stopped = false ∧
      poster.reorgWorker.stopped = false
  failed : poster.failed = true →
    poster.built = false ∧ poster.started = false ∧ poster.stopped = false
  unbuilt : poster.built = false →
    poster.started = false ∧ poster.stopped = false
  released : poster.released = true → poster.Drained

end PosterInstance

section Workers

open Scheduler

variable {loop next : EventLoop}
variable {event : Scheduler.Event}

/-- Only the calls of the Poster start or stop a worker. -/
theorem calls_step
    (consistent : Consistent loop)
    (own : ofLoop event = true)
    (taken : Scheduler.step loop event = some next) :
    next.started = loop.started ∧ next.stopped = loop.stopped := by
  cases event with
  | start initialDelayMs =>
      cases own
  | fire handle =>
      simp only [Scheduler.step, Option.ite_none_right_eq_some,
        Option.some.injEq] at taken
      obtain ⟨-, rfl⟩ := taken
      rw [Scheduler.fire]
      split
      · exact ⟨rfl, rfl⟩
      · exact ⟨rfl, rfl⟩
  | settle tick result =>
      simp only [Scheduler.step, Option.ite_none_right_eq_some,
        Option.some.injEq] at taken
      obtain ⟨-, rfl⟩ := taken
      exact ⟨rfl, rfl⟩
  | run microtask =>
      simp only [Scheduler.step, Option.ite_none_right_eq_some,
        Option.some.injEq] at taken
      obtain ⟨member, rfl⟩ := taken
      cases microtask with
      | resume tick result =>
          obtain ⟨-, started, stopped, -⟩ :=
            consistent.resumeTick_spec member
          exact ⟨started, stopped⟩
      | finish tick =>
          exact ⟨rfl, rfl⟩
      | resumeStop call =>
          exact ⟨rfl, rfl⟩
  | stop =>
      cases own

theorem resolved_schedule
    (delayMs : Nat)
    (loop : EventLoop) :
    (schedule delayMs loop).resolved = loop.resolved := by
  rw [schedule]
  split
  · rfl
  · rfl

/-- A call of `stop` that has resolved stays so. -/
theorem resolved_step
    (own : ofLoop event = true)
    (taken : Scheduler.step loop event = some next)
    (resolved : loop.resolved ≠ []) :
    next.resolved ≠ [] := by
  cases event with
  | start initialDelayMs =>
      cases own
  | fire handle =>
      simp only [Scheduler.step, Option.ite_none_right_eq_some,
        Option.some.injEq] at taken
      obtain ⟨-, rfl⟩ := taken
      rw [Scheduler.fire]
      split
      · exact resolved
      · exact resolved
  | settle tick result =>
      simp only [Scheduler.step, Option.ite_none_right_eq_some,
        Option.some.injEq] at taken
      obtain ⟨-, rfl⟩ := taken
      exact resolved
  | run microtask =>
      simp only [Scheduler.step, Option.ite_none_right_eq_some,
        Option.some.injEq] at taken
      obtain ⟨-, rfl⟩ := taken
      cases microtask with
      | resume tick result =>
          simp only [runMicrotask, resumeTick, returnTick]
          cases result with
          | delay delayMs =>
              dsimp only
              rw [resolved_schedule]
              exact resolved
          | null =>
              exact resolved
          | rejected =>
              dsimp only
              split
              · rw [resolved_schedule]
                exact resolved
              · exact resolved
      | finish tick =>
          exact resolved
      | resumeStop call =>
          simp [runMicrotask]
  | stop =>
      cases own

/-- A drained worker has no tick, and starts none. -/
theorem quiet_of_resolved
    (consistent : Consistent loop)
    (resolved : loop.resolved ≠ []) :
    loop.inFlight = [] ∧ loop.timeouts = [] := by
  obtain ⟨stopped, unfinished⟩ := consistent.drained (.inl resolved)
  have halted : loop.worker.running = false := by
    by_contra running
    rw [Bool.not_eq_false] at running
    have live := (consistent.live.mp running).2
    rw [stopped] at live
    cases live
  refine ⟨?_, consistent.timeouts_eq_nil (consistent.timer_of_halted halted)⟩
  cases consistent.phase with
  | idle inFlight => exact inFlight
  | flying tick _ isUnfinished =>
      rw [unfinished] at isUnfinished
      cases isUnfinished
  | settled tick result inFlight => exact inFlight
  | returned tick inFlight => exact inFlight

/-- A worker that was not started has nothing to do. -/
theorem quiet_of_fresh
    (consistent : Consistent loop)
    (fresh : loop.started = false) :
    loop.inFlight = [] := by
  have unfinished := consistent.unstarted fresh
  cases consistent.phase with
  | idle inFlight => exact inFlight
  | flying tick _ isUnfinished =>
      rw [unfinished] at isUnfinished
      cases isUnfinished
  | settled tick result inFlight => exact inFlight
  | returned tick inFlight => exact inFlight

theorem stopped_start
    (delayMs : Nat)
    (loop : EventLoop) :
    (Scheduler.start delayMs loop).stopped = loop.stopped := by
  rw [Scheduler.start]
  split
  · rfl
  · rw [schedule]
    split
    · rfl
    · rfl

/-- A worker that stays as it is or makes a step of its own. -/
theorem worker_step
    (consistent : Consistent loop)
    (steps :
      next = loop ∨
        ∃ event, ofLoop event = true ∧
          Scheduler.step loop event = some next) :
    Consistent next ∧
      next.started = loop.started ∧
      next.stopped = loop.stopped ∧
      (loop.resolved ≠ [] → next.resolved ≠ []) := by
  rcases steps with rfl | ⟨event, own, taken⟩
  · exact ⟨consistent, rfl, rfl, id⟩
  · obtain ⟨started, stopped⟩ := calls_step consistent own taken
    exact ⟨consistent_step consistent taken, started, stopped,
      resolved_step own taken⟩

end Workers

namespace PosterInstance

variable {poster : PosterInstance}

theorem sound_create
    (signer : Address) :
    (create signer).Sound where
  aggregator := Scheduler.consistent_initial
  reorg := Scheduler.consistent_initial
  fresh := fun _ _ => ⟨rfl, rfl⟩
  unstopped := fun _ => ⟨rfl, rfl⟩
  failed := fun failed => by cases failed
  unbuilt := fun _ => ⟨rfl, rfl⟩
  released := fun released => by cases released

/-- `createPoster` returns. -/
theorem Sound.returned
    (sound : poster.Sound)
    (pending : poster.failed = false) :
    Sound { poster with built := true } where
  aggregator := sound.aggregator
  reorg := sound.reorg
  fresh := sound.fresh
  unstopped := sound.unstopped
  failed := fun failed => by rw [pending] at failed; cases failed
  unbuilt := fun unbuilt => by cases unbuilt
  released := sound.released

/-- `createPoster` throws. -/
theorem Sound.thrown
    (sound : poster.Sound)
    (pending : poster.built = false) :
    Sound { poster with failed := true } where
  aggregator := sound.aggregator
  reorg := sound.reorg
  fresh := sound.fresh
  unstopped := sound.unstopped
  failed := fun _ => ⟨pending, sound.unbuilt pending⟩
  unbuilt := sound.unbuilt
  released := sound.released

theorem Sound.stopped_of_released
    (sound : poster.Sound)
    (released : poster.released = true) :
    poster.stopped ≠ false := by
  intro unstopped
  have drained := sound.released released
  have stopped := (sound.aggregator.drained (.inl drained.1)).1
  rw [(sound.unstopped unstopped).1] at stopped
  cases stopped

theorem Sound.start
    (sound : poster.Sound)
    (built : poster.built = true)
    (reorgPollMs : Nat) :
    (poster.start reorgPollMs).Sound := by
  rw [PosterInstance.start]
  split
  · exact sound
  · rename_i idle
    simp only [not_or, Bool.not_eq_true] at idle
    obtain ⟨unstopped, unstarted⟩ := idle
    obtain ⟨first, second⟩ := sound.fresh unstarted unstopped
    obtain ⟨third, fourth⟩ := sound.unstopped unstopped
    exact {
      aggregator := Scheduler.start_kept 0 sound.aggregator first third
      reorg :=
        Scheduler.start_kept reorgPollMs sound.reorg second fourth
      fresh := fun started => by cases started
      unstopped := fun _ => ⟨(stopped_start _ _).trans third,
        (stopped_start _ _).trans fourth⟩
      failed := fun failed => by
        rw [(sound.failed failed).1] at built
        cases built
      unbuilt := fun unbuilt => by
        rw [built] at unbuilt
        cases unbuilt
      released := fun released =>
        absurd unstopped (sound.stopped_of_released released) }

theorem Sound.stop
    (sound : poster.Sound)
    (built : poster.built = true) :
    poster.stop.Sound := by
  rw [PosterInstance.stop]
  split
  · exact sound
  · rename_i running
    have unstopped : poster.stopped = false := by
      simpa using running
    have stops (loop : Scheduler.EventLoop) :
        Scheduler.step loop .stop =
          some (Scheduler.stop { loop with stopped := true }) :=
      rfl
    exact {
      aggregator :=
        Scheduler.consistent_step sound.aggregator (stops _)
      reorg := Scheduler.consistent_step sound.reorg (stops _)
      fresh := fun _ stopped => by cases stopped
      unstopped := fun stopped => by cases stopped
      failed := fun failed => by
        rw [(sound.failed failed).1] at built
        cases built
      unbuilt := fun unbuilt => by
        rw [built] at unbuilt
        cases unbuilt
      released := fun released =>
        absurd unstopped (sound.stopped_of_released released) }

/-- A worker makes a step of its own. -/
theorem Sound.work
    (sound : poster.Sound)
    {aggregatorWorker reorgWorker : Scheduler.EventLoop}
    (aggregator :
      aggregatorWorker = poster.aggregatorWorker ∨
        ∃ event, ofLoop event = true ∧
          Scheduler.step poster.aggregatorWorker event =
            some aggregatorWorker)
    (reorg :
      reorgWorker = poster.reorgWorker ∨
        ∃ event, ofLoop event = true ∧
          Scheduler.step poster.reorgWorker event = some reorgWorker) :
    Sound { poster with
      aggregatorWorker := aggregatorWorker
      reorgWorker := reorgWorker } := by
  obtain ⟨kept, started, stopped, resolved⟩ :=
    worker_step sound.aggregator aggregator
  obtain ⟨alsoKept, alsoStarted, alsoStopped, alsoResolved⟩ :=
    worker_step sound.reorg reorg
  exact {
    aggregator := kept
    reorg := alsoKept
    fresh := fun unstarted unstopped => by
      obtain ⟨first, second⟩ := sound.fresh unstarted unstopped
      exact ⟨started.trans first, alsoStarted.trans second⟩
    unstopped := fun unstopped => by
      obtain ⟨first, second⟩ := sound.unstopped unstopped
      exact ⟨stopped.trans first, alsoStopped.trans second⟩
    failed := sound.failed
    unbuilt := sound.unbuilt
    released := fun released =>
      ⟨resolved (sound.released released).1,
        alsoResolved (sound.released released).2⟩ }

/-- `stop` goes on after its `await`. -/
theorem Sound.release
    (sound : poster.Sound)
    (drained : poster.Drained) :
    Sound { poster with released := true } where
  aggregator := sound.aggregator
  reorg := sound.reorg
  fresh := sound.fresh
  unstopped := sound.unstopped
  failed := sound.failed
  unbuilt := sound.unbuilt
  released := fun _ => drained

/-- A tick of one of the workers is in flight. -/
def Ticking (poster : PosterInstance) : Prop :=
  poster.aggregatorWorker.inFlight ≠ [] ∨
    poster.reorgWorker.inFlight ≠ []

/-- A Poster with a tick in flight still has its signer. -/
theorem Sound.live_of_ticking
    (sound : poster.Sound)
    (ticking : poster.Ticking) :
    poster.Live := by
  constructor
  · by_contra failed
    rw [Bool.not_eq_false] at failed
    obtain ⟨-, unstarted, unstopped⟩ := sound.failed failed
    obtain ⟨first, second⟩ := sound.fresh unstarted unstopped
    rcases ticking with ticking | ticking
    · exact ticking (quiet_of_fresh sound.aggregator first)
    · exact ticking (quiet_of_fresh sound.reorg second)
  · by_contra released
    rw [Bool.not_eq_false] at released
    obtain ⟨first, second⟩ := sound.released released
    rcases ticking with ticking | ticking
    · exact ticking (quiet_of_resolved sound.aggregator first).1
    · exact ticking (quiet_of_resolved sound.reorg second).1

end PosterInstance

namespace PosterProcess

/-- A signer is in the registry exactly while a Poster has it, and no two
Posters have one signer. -/
structure Sound (process : PosterProcess) : Prop where
  posters :
    ∀ (index : Nat) (poster : PosterInstance),
      process.instances[index]? = some poster → poster.Sound
  registered :
    ∀ signer : Address,
      signer ∈ process.signerRegistry ↔
        ∃ (index : Nat) (poster : PosterInstance),
          process.instances[index]? = some poster ∧
            poster.Live ∧
            poster.signer = signer
  exclusive :
    ∀ {first second : Nat} {poster other : PosterInstance},
      process.instances[first]? = some poster →
      process.instances[second]? = some other →
      poster.Live →
      other.Live →
      poster.signer = other.signer →
      first = second

theorem sound_initial : initial.Sound where
  posters := by
    intro index poster isPoster
    cases isPoster
  registered := by
    intro signer
    simp [initial]
  exclusive := by
    intro first second poster other isPoster
    cases isPoster

variable {process : PosterProcess}
variable {index : Nat}
variable {poster later : PosterInstance}

theorem getElem?_put
    (isPoster : process.instances[index]? = some poster)
    {other : Nat}
    {found : PosterInstance} :
    (process.put index later).instances[other]? = some found ↔
      other = index ∧ found = later ∨
        other ≠ index ∧ process.instances[other]? = some found := by
  obtain ⟨bound, -⟩ := List.getElem?_eq_some_iff.mp isPoster
  rw [put, List.getElem?_set]
  by_cases same : index = other
  · subst same
    simp [bound, eq_comm]
  · simp [same, Ne.symm same]

/-- A Poster that keeps its signer. -/
theorem Sound.put
    (sound : process.Sound)
    (isPoster : process.instances[index]? = some poster)
    (kept : later.Sound)
    (signer : later.signer = poster.signer)
    (live : later.Live ↔ poster.Live) :
    (process.put index later).Sound where
  posters := by
    intro other found isFound
    rcases (getElem?_put isPoster).mp isFound with ⟨-, rfl⟩ | ⟨-, before⟩
    · exact kept
    · exact sound.posters other found before
  registered := by
    intro wanted
    refine (sound.registered wanted).trans ⟨?_, ?_⟩
    · rintro ⟨other, found, isFound, isLive, isSigner⟩
      by_cases same : other = index
      · subst same
        rw [isPoster] at isFound
        cases isFound
        exact ⟨other, later, (getElem?_put isPoster).mpr (.inl ⟨rfl, rfl⟩),
          live.mpr isLive, signer.trans isSigner⟩
      · exact ⟨other, found,
          (getElem?_put isPoster).mpr (.inr ⟨same, isFound⟩), isLive,
          isSigner⟩
    · rintro ⟨other, found, isFound, isLive, isSigner⟩
      rcases (getElem?_put isPoster).mp isFound with
        ⟨rfl, rfl⟩ | ⟨-, before⟩
      · exact ⟨other, poster, isPoster, live.mp isLive,
          signer.symm.trans isSigner⟩
      · exact ⟨other, found, before, isLive, isSigner⟩
  exclusive := by
    have before
        {other : Nat}
        {found : PosterInstance}
        (isFound :
          (process.put index later).instances[other]? = some found)
        (isLive : found.Live) :
        ∃ old,
          process.instances[other]? = some old ∧
            old.Live ∧
            old.signer = found.signer := by
      rcases (getElem?_put isPoster).mp isFound with
        ⟨rfl, rfl⟩ | ⟨-, unchanged⟩
      · exact ⟨poster, isPoster, live.mp isLive, signer.symm⟩
      · exact ⟨found, unchanged, isLive, rfl⟩
    intro first second one two isOne isTwo oneLive twoLive same
    obtain ⟨old, isOld, oldLive, oldSigner⟩ := before isOne oneLive
    obtain ⟨older, isOlder, olderLive, olderSigner⟩ := before isTwo twoLive
    exact sound.exclusive isOld isOlder oldLive olderLive
      (oldSigner.trans (same.trans olderSigner.symm))

/-- A Poster that gives its signer back. -/
theorem Sound.delete
    (sound : process.Sound)
    (isPoster : process.instances[index]? = some poster)
    (live : poster.Live)
    (kept : later.Sound)
    (gone : ¬later.Live) :
    ((process.put index later).delete poster.signer).Sound where
  posters := by
    intro other found isFound
    rcases (getElem?_put isPoster).mp isFound with ⟨-, rfl⟩ | ⟨-, before⟩
    · exact kept
    · exact sound.posters other found before
  registered := by
    intro wanted
    constructor
    · intro member
      obtain ⟨inRegistry, other⟩ := List.mem_filter.mp member
      obtain ⟨position, found, isFound, isLive, isSigner⟩ :=
        (sound.registered wanted).mp inRegistry
      refine ⟨position, found,
        (getElem?_put isPoster).mpr (.inr ⟨?_, isFound⟩), isLive, isSigner⟩
      rintro rfl
      rw [isPoster] at isFound
      cases isFound
      simp [isSigner] at other
    · rintro ⟨position, found, isFound, isLive, isSigner⟩
      rcases (getElem?_put isPoster).mp isFound with
        ⟨-, rfl⟩ | ⟨elsewhere, before⟩
      · exact absurd isLive gone
      · refine List.mem_filter.mpr ⟨(sound.registered wanted).mpr
          ⟨position, found, before, isLive, isSigner⟩, ?_⟩
        rw [decide_eq_true_eq]
        rintro rfl
        exact elsewhere
          (sound.exclusive before isPoster isLive live isSigner)
  exclusive := by
    intro first second one two isOne isTwo oneLive twoLive same
    rcases (getElem?_put isPoster).mp isOne with
      ⟨-, rfl⟩ | ⟨-, oneBefore⟩
    · exact absurd oneLive gone
    · rcases (getElem?_put isPoster).mp isTwo with
        ⟨-, rfl⟩ | ⟨-, twoBefore⟩
      · exact absurd twoLive gone
      · exact sound.exclusive oneBefore twoBefore oneLive twoLive same

/-- `createPoster` takes a signer that no Poster has. -/
theorem Sound.create
    (sound : process.Sound)
    {signer : Address}
    (free : signer ∉ process.signerRegistry) :
    Sound {
      signerRegistry := process.signerRegistry ++ [signer]
      instances := process.instances ++ [.create signer] } := by
  have isLive : (PosterInstance.create signer).Live := ⟨rfl, rfl⟩
  have split
      {position : Nat}
      {found : PosterInstance} :
      (process.instances ++ [.create signer])[position]? = some found ↔
        process.instances[position]? = some found ∨
          position = process.instances.length ∧
            found = .create signer := by
    rw [List.getElem?_append]
    by_cases inside : position < process.instances.length
    · have other : position ≠ process.instances.length := by omega
      simp [inside, other]
    · have none : process.instances[position]? = none :=
        List.getElem?_eq_none (Nat.le_of_not_lt inside)
      rw [if_neg inside, none, List.getElem?_singleton]
      by_cases last : position = process.instances.length
      · simp [last, eq_comm]
      · have beyond : position - process.instances.length ≠ 0 := by
          omega
        simp [last, beyond]
  constructor
  · intro position found isFound
    rcases split.mp isFound with before | ⟨-, rfl⟩
    · exact sound.posters position found before
    · exact PosterInstance.sound_create signer
  · intro wanted
    rw [List.mem_append, List.mem_singleton, sound.registered wanted]
    constructor
    · rintro (⟨position, found, isFound, rest⟩ | rfl)
      · exact ⟨position, found, split.mpr (.inl isFound), rest⟩
      · exact ⟨_, _, split.mpr (.inr ⟨rfl, rfl⟩), isLive, rfl⟩
    · rintro ⟨position, found, isFound, live, isSigner⟩
      rcases split.mp isFound with before | ⟨-, rfl⟩
      · exact .inl ⟨position, found, before, live, isSigner⟩
      · exact .inr isSigner.symm
  · have fresh
        {position : Nat}
        {found : PosterInstance}
        (before : process.instances[position]? = some found)
        (live : found.Live) :
        found.signer ≠ signer :=
      fun same => free ((sound.registered signer).mpr
        ⟨position, found, before, live, same⟩)
    intro first second one two isOne isTwo oneLive twoLive same
    rcases split.mp isOne with oneBefore | ⟨rfl, rfl⟩
    · rcases split.mp isTwo with twoBefore | ⟨-, rfl⟩
      · exact sound.exclusive oneBefore twoBefore oneLive twoLive same
      · exact absurd same (fresh oneBefore oneLive)
    · rcases split.mp isTwo with twoBefore | ⟨rfl, -⟩
      · exact absurd same.symm (fresh twoBefore twoLive)
      · rfl

/-- A Poster that works on, starts or stops. -/
theorem Sound.step
    (sound : process.Sound)
    {event : ProcessEvent}
    {next : PosterProcess}
    (stepped : processStep process event = some next) :
    next.Sound := by
  cases event with
  | createPoster signer =>
      rw [processStep] at stepped
      split at stepped
      · cases stepped
        exact sound
      · rename_i free
        cases stepped
        exact sound.create (by simpa using free)
  | construct index ok =>
      rw [processStep] at stepped
      split at stepped
      · cases stepped
      · rename_i poster isPoster
        have ofPoster := sound.posters index poster isPoster
        split at stepped
        · cases stepped
        · rename_i pending
          simp only [not_or, Bool.not_eq_true] at pending
          obtain ⟨unbuilt, unfailed⟩ := pending
          split at stepped
          · cases stepped
            exact sound.put isPoster (ofPoster.returned unfailed) rfl
              Iff.rfl
          · cases stepped
            have unreleased : poster.released = false := by
              by_contra released
              rw [Bool.not_eq_false] at released
              exact ofPoster.stopped_of_released released
                (ofPoster.unbuilt unbuilt).2
            exact sound.delete isPoster ⟨unfailed, unreleased⟩
              (ofPoster.thrown unbuilt) (fun live => by cases live.1)
  | start index reorgPollMs =>
      rw [processStep] at stepped
      split at stepped
      · cases stepped
      · rename_i poster isPoster
        have ofPoster := sound.posters index poster isPoster
        split at stepped
        · rename_i built
          cases stepped
          refine sound.put isPoster (ofPoster.start built reorgPollMs) ?_ ?_
          · rw [PosterInstance.start]
            split <;> rfl
          · rw [PosterInstance.start]
            split <;> exact Iff.rfl
        · cases stepped
  | stop index =>
      rw [processStep] at stepped
      split at stepped
      · cases stepped
      · rename_i poster isPoster
        have ofPoster := sound.posters index poster isPoster
        split at stepped
        · rename_i built
          cases stepped
          refine sound.put isPoster (ofPoster.stop built) ?_ ?_
          · rw [PosterInstance.stop]
            split <;> rfl
          · rw [PosterInstance.stop]
            split <;> exact Iff.rfl
        · cases stepped
  | release index =>
      rw [processStep] at stepped
      split at stepped
      · cases stepped
      · rename_i poster isPoster
        have ofPoster := sound.posters index poster isPoster
        split at stepped
        · rename_i ready
          obtain ⟨stopped, unreleased, drained⟩ := ready
          cases stepped
          have unfailed : poster.failed = false := by
            by_contra failed
            rw [Bool.not_eq_false] at failed
            rw [(ofPoster.failed failed).2.2] at stopped
            cases stopped
          exact sound.delete isPoster
            ⟨unfailed, Bool.not_eq_true _ ▸ unreleased⟩
            (ofPoster.release drained) (fun live => by cases live.2)
        · cases stepped
  | aggregator index event =>
      rw [processStep] at stepped
      split at stepped
      · cases stepped
      · rename_i poster isPoster
        have ofPoster := sound.posters index poster isPoster
        split at stepped
        · rename_i own
          obtain ⟨worker, taken, rfl⟩ := Option.map_eq_some_iff.mp stepped
          exact sound.put isPoster
            (ofPoster.work (.inr ⟨event, own, taken⟩) (.inl rfl)) rfl
            Iff.rfl
        · cases stepped
  | reorg index event =>
      rw [processStep] at stepped
      split at stepped
      · cases stepped
      · rename_i poster isPoster
        have ofPoster := sound.posters index poster isPoster
        split at stepped
        · rename_i own
          obtain ⟨worker, taken, rfl⟩ := Option.map_eq_some_iff.mp stepped
          exact sound.put isPoster
            (ofPoster.work (.inl rfl) (.inr ⟨event, own, taken⟩)) rfl
            Iff.rfl
        · cases stepped

/-- What a process may rely on. -/
structure Exclusive (process : PosterProcess) : Prop where
  /-- No two Posters have one signer at a time. -/
  single :
    ∀ (first second : Nat) (poster other : PosterInstance),
      process.instances[first]? = some poster →
      process.instances[second]? = some other →
      poster.Live →
      other.Live →
      poster.signer = other.signer →
      first = second
  /-- `createPoster` refuses a signer exactly while a Poster has it. -/
  refused :
    ∀ signer : Address,
      signer ∈ process.signerRegistry ↔
        ∃ poster ∈ process.instances,
          poster.Live ∧ poster.signer = signer
  /-- Whatever ticks still has its signer, and is one tick of a worker. -/
  ticking :
    ∀ poster ∈ process.instances,
      (poster.Ticking → poster.Live) ∧
        poster.aggregatorWorker.inFlight.length ≤ 1 ∧
        poster.reorgWorker.inFlight.length ≤ 1
  /-- Once the signer is given back no tick is in flight or scheduled. -/
  drained :
    ∀ poster ∈ process.instances,
      poster.released = true →
      (poster.aggregatorWorker.inFlight = [] ∧
          poster.aggregatorWorker.timeouts = []) ∧
        poster.reorgWorker.inFlight = [] ∧
          poster.reorgWorker.timeouts = []

theorem length_inFlight
    {loop : Scheduler.EventLoop}
    (consistent : Scheduler.Consistent loop) :
    loop.inFlight.length ≤ 1 := by
  cases consistent.phase with
  | idle inFlight => simp [inFlight]
  | flying tick inFlight => simp [inFlight]
  | settled tick result inFlight => simp [inFlight]
  | returned tick inFlight => simp [inFlight]

theorem Sound.exclusively
    (sound : process.Sound) :
    process.Exclusive where
  single := fun _ _ _ _ => sound.exclusive
  refused := by
    intro signer
    rw [sound.registered signer]
    constructor
    · rintro ⟨index, poster, isPoster, rest⟩
      exact ⟨poster, List.mem_of_getElem? isPoster, rest⟩
    · rintro ⟨poster, member, rest⟩
      obtain ⟨index, isPoster⟩ := List.mem_iff_getElem?.mp member
      exact ⟨index, poster, isPoster, rest⟩
  ticking := by
    intro poster member
    obtain ⟨index, isPoster⟩ := List.mem_iff_getElem?.mp member
    have ofPoster := sound.posters index poster isPoster
    exact ⟨ofPoster.live_of_ticking, length_inFlight ofPoster.aggregator,
      length_inFlight ofPoster.reorg⟩
  drained := by
    intro poster member released
    obtain ⟨index, isPoster⟩ := List.mem_iff_getElem?.mp member
    have ofPoster := sound.posters index poster isPoster
    obtain ⟨first, second⟩ := ofPoster.released released
    exact ⟨quiet_of_resolved ofPoster.aggregator first,
      quiet_of_resolved ofPoster.reorg second⟩

end PosterProcess

/-- In every run of a process, its Posters constructed, started, stopped and
constructed again in any order among the steps of their workers, a signer is
never used by two Posters, and never by one that has given it back. -/
theorem posters_exclusive
    (events : List ProcessEvent) :
    Runs.AllStates processStep PosterProcess.Exclusive
      PosterProcess.initial events := by
  have sound :=
    @Runs.allStates_of_invariant _ _ processStep PosterProcess.Sound
      (fun _ _ => True)
      (fun sound _ stepped => sound.step stepped)
      PosterProcess.initial events PosterProcess.sound_initial
      (@Runs.AllSteps.of_forall _ _ _ (fun _ _ => True)
        (fun _ _ => trivial) _ _)
  exact sound.mono fun process held => held.exclusively

end Bam
