import Bam.Lib.JsMap
import Bam.Poster.Ingest

namespace Bam

/-!
# The rate limiter

`RateLimiter`: one history of accepted times for each signer, cut to the window
at every call and dropped by a sweep once nothing of it is left in the window.
A key is the address it spells, as `key.toLowerCase()` makes it.  The reference
the limiter is compared with keeps every accepted call.
-/

structure RateLimitConfig where
  windowMs : Int
  maxPerWindow : Int
  deriving Repr, DecidableEq

/-- `DEFAULT_RATE_LIMIT`. -/
def DEFAULT_RATE_LIMIT : RateLimitConfig where
  windowMs := 60000
  maxPerWindow := 60

/-- The times of a history that are after the start of the window. -/
def slid
    (windowStart : Int)
    (history : List Int) : List Int :=
  history.filter fun time => windowStart < time

theorem slid_slid
    {windowStart later : Int}
    (forward : windowStart ≤ later)
    (history : List Int) :
    slid later (slid windowStart history) = slid later history := by
  unfold slid
  rw [List.filter_filter]
  apply List.filter_congr
  intro time _
  have kept : later < time → windowStart < time := forward.trans_lt
  simpa using kept

theorem slid_append
    (windowStart : Int)
    (history newer : List Int) :
    slid windowStart (history ++ newer) =
      slid windowStart history ++ slid windowStart newer :=
  List.filter_append history newer

structure RateLimiter where
  timestamps : JsMap Address (List Int)
  lastSweepMs : Int

namespace RateLimiter

def initial : RateLimiter where
  timestamps := JsMap.empty
  lastSweepMs := 0

/-- The history of a key, empty where the map has none. -/
def history
    (limiter : RateLimiter)
    (key : Address) : List Int :=
  (limiter.timestamps.get? key).getD []

/-- Cut the history of a key where it stands: the map sees the cut when it
holds the history. -/
def cut
    (windowStart : Int)
    (key : Address)
    (limiter : RateLimiter) : RateLimiter :=
  match limiter.timestamps.get? key with
  | none => limiter
  | some held =>
      { limiter with
        timestamps := limiter.timestamps.set key (slid windowStart held) }

/-- A history the sweep keeps: its last time is inside the window. -/
def live
    (windowStart : Int)
    (history : List Int) : Bool :=
  match history.getLast? with
  | none => false
  | some last => windowStart < last

/-- The loop over the map that drops the stale entries. -/
def sweep
    (windowStart now : Int)
    (limiter : RateLimiter) : RateLimiter where
  timestamps :=
    limiter.timestamps.filter fun entry => live windowStart entry.2
  lastSweepMs := now

/-- The limiter before a call decides: the history of the key cut to the
window, and the stale entries dropped when it sweeps. -/
def maintain
    (windowStart now : Int)
    (sweeping : Bool)
    (key : Address)
    (limiter : RateLimiter) : RateLimiter :=
  let tracked := limiter.cut windowStart key
  if sweeping then tracked.sweep windowStart now else tracked

/-- `timestamps.set(key, history)`. -/
def put
    (limiter : RateLimiter)
    (key : Address)
    (history : List Int) : RateLimiter :=
  { limiter with timestamps := limiter.timestamps.set key history }

/-- `check`, with the question whether to sweep left open. -/
def checkWith
    (config : RateLimitConfig)
    (sweeping : Bool)
    (limiter : RateLimiter)
    (now : Int)
    (key : Address) : RateLimiter × Except PosterRejection Unit :=
  let windowStart := now - config.windowMs
  let history := slid windowStart (limiter.history key)
  let maintained := limiter.maintain windowStart now sweeping key
  if config.maxPerWindow ≤ history.length then
    (maintained.put key history, .error .rate_limited)
  else
    (maintained.put key (history ++ [now]), .ok ())

/-- A sweep is due once a window after the last one. -/
def sweepDue
    (config : RateLimitConfig)
    (limiter : RateLimiter)
    (now : Int) : Bool :=
  config.windowMs ≤ now - limiter.lastSweepMs

/-- `check`. -/
def check
    (config : RateLimitConfig)
    (limiter : RateLimiter)
    (now : Int)
    (key : Address) : RateLimiter × Except PosterRejection Unit :=
  limiter.checkWith config (limiter.sweepDue config now) now key

/-- One call of `check`, at the time its clock shows. -/
structure Call where
  now : Int
  key : Address
  deriving Repr, DecidableEq

/-- The answers to a sequence of calls. -/
def decisions
    (config : RateLimitConfig) :
    RateLimiter → List Call → List (Except PosterRejection Unit)
  | _, [] => []
  | limiter, call :: calls =>
      let (next, decision) := limiter.check config call.now call.key
      decision :: decisions config next calls

/-- The answers to a sequence of calls under a schedule that says at which of
them to sweep. -/
def decisionsUnder
    (config : RateLimitConfig) :
    (Nat → Bool) → RateLimiter → List Call →
      List (Except PosterRejection Unit)
  | _, _, [] => []
  | schedule, limiter, call :: calls =>
      let (next, decision) :=
        limiter.checkWith config (schedule 0) call.now call.key
      decision ::
        decisionsUnder config (fun index => schedule (index + 1)) next calls

/-- The sliding window as it is meant: over every accepted call, at most
`maxPerWindow` of one key inside `(now - windowMs, now]`. -/
def admits
    (config : RateLimitConfig)
    (accepted : List Call)
    (call : Call) : Bool :=
  ((accepted.filter fun earlier =>
    earlier.key = call.key ∧
      call.now - config.windowMs < earlier.now ∧
      earlier.now ≤ call.now).length : Int) < config.maxPerWindow

/-- The answers of the reference. -/
def referenceDecisions
    (config : RateLimitConfig) :
    List Call → List Call → List (Except PosterRejection Unit)
  | _, [] => []
  | accepted, call :: calls =>
      if admits config accepted call then
        .ok () :: referenceDecisions config (accepted ++ [call]) calls
      else
        .error .rate_limited :: referenceDecisions config accepted calls

/-- The accepted times of a key. -/
def acceptedTimes
    (accepted : List Call)
    (key : Address) : List Int :=
  (accepted.filter fun earlier => earlier.key = key).map Call.now

/-- What the limiter owes the reference from a time on: every history agrees
with the accepted times of its key in each window that can still come. -/
structure Tracks
    (config : RateLimitConfig)
    (time : Int)
    (accepted : List Call)
    (limiter : RateLimiter) : Prop where
  past : ∀ earlier ∈ accepted, earlier.now ≤ time
  ordered : ∀ key, (limiter.history key).Pairwise (· ≤ ·)
  agrees : ∀ key now, time ≤ now →
    slid (now - config.windowMs) (limiter.history key) =
      slid (now - config.windowMs) (acceptedTimes accepted key)

theorem tracks_initial
    (config : RateLimitConfig)
    (time : Int) :
    Tracks config time [] initial where
  past := by simp
  ordered := fun _ => List.Pairwise.nil
  agrees := fun _ _ _ => rfl

theorem Tracks.later
    {config : RateLimitConfig}
    {time later : Int}
    {accepted : List Call}
    {limiter : RateLimiter}
    (tracks : Tracks config time accepted limiter)
    (forward : time ≤ later) :
    Tracks config later accepted limiter where
  past := fun earlier member => (tracks.past earlier member).trans forward
  ordered := tracks.ordered
  agrees := fun key now reached =>
    tracks.agrees key now (forward.trans reached)

theorem history_put
    (limiter : RateLimiter)
    (key other : Address)
    (times : List Int) :
    (limiter.put key times).history other =
      if other = key then times else limiter.history other := by
  unfold put history
  simp only [JsMap.get?_set]
  split <;> rfl

theorem history_cut
    {key other : Address}
    (windowStart : Int)
    (limiter : RateLimiter)
    (differs : other ≠ key) :
    (limiter.cut windowStart key).history other =
      limiter.history other := by
  unfold cut
  split
  · rfl
  · exact (history_put limiter key other _).trans (if_neg differs)

theorem history_sweep
    (windowStart now : Int)
    (limiter : RateLimiter)
    (key : Address) :
    (limiter.sweep windowStart now).history key =
      if live windowStart (limiter.history key) then limiter.history key
      else [] := by
  unfold sweep history
  simp only [JsMap.get?_filter]
  cases limiter.timestamps.get? key with
  | none => simp
  | some held =>
      rw [Option.filter_some, Option.getD_some]
      split <;> rfl

/-- What a sweep drops was outside the window already. -/
theorem slid_eq_nil_of_not_live
    {windowStart : Int}
    {history : List Int}
    (ordered : history.Pairwise (· ≤ ·))
    (stale : live windowStart history = false) :
    slid windowStart history = [] := by
  induction history using List.reverseRecOn with
  | nil => rfl
  | append_singleton earlier last _ =>
      have outside : last ≤ windowStart := by
        simpa [live] using stale
      have before := (List.pairwise_append.mp ordered).2.2
      apply List.filter_eq_nil_iff.mpr
      intro time member
      have within : time ≤ last := by
        rcases List.mem_append.mp member with old | new
        · exact before time old last (List.mem_singleton_self last)
        · exact (List.mem_singleton.mp new).le
      simpa using within.trans outside

/-- The history of another key: as it was, or dropped when nothing of it is
inside the window. -/
theorem history_maintain
    {limiter : RateLimiter}
    {key other : Address}
    (windowStart now : Int)
    (sweeping : Bool)
    (differs : other ≠ key)
    (ordered : (limiter.history other).Pairwise (· ≤ ·)) :
    (limiter.maintain windowStart now sweeping key).history other =
        limiter.history other ∨
      (limiter.maintain windowStart now sweeping key).history other = [] ∧
        slid windowStart (limiter.history other) = [] := by
  have kept := history_cut windowStart limiter differs
  unfold maintain
  cases sweeping with
  | false => exact .inl kept
  | true =>
      rw [if_pos rfl, history_sweep, kept]
      cases alive : live windowStart (limiter.history other) with
      | false =>
          exact .inr ⟨rfl, slid_eq_nil_of_not_live ordered alive⟩
      | true => exact .inl rfl

/-- So no window that is still to come sees what the sweep does. -/
theorem slid_history_maintain
    {limiter : RateLimiter}
    {key other : Address}
    {windowStart later : Int}
    (now : Int)
    (sweeping : Bool)
    (differs : other ≠ key)
    (ordered : (limiter.history other).Pairwise (· ≤ ·))
    (forward : windowStart ≤ later) :
    slid later
        ((limiter.maintain windowStart now sweeping key).history other) =
      slid later (limiter.history other) := by
  rcases history_maintain windowStart now sweeping differs ordered with
    same | ⟨dropped, outside⟩
  · rw [same]
  · rw [dropped, ← slid_slid forward (limiter.history other), outside]

theorem acceptedTimes_append
    (accepted newer : List Call)
    (key : Address) :
    acceptedTimes (accepted ++ newer) key =
      acceptedTimes accepted key ++ acceptedTimes newer key := by
  simp [acceptedTimes]

/-- The times one call adds, for its own key and for another. -/
theorem acceptedTimes_own
    {newer : List Call}
    {now : Int}
    {key : Address}
    (own : ∀ call ∈ newer, call = { now := now, key := key })
    (other : Address) :
    acceptedTimes newer other =
      if other = key then newer.map Call.now else [] := by
  have keyed : ∀ call ∈ newer, call.key = key := by
    intro call member
    rw [own call member]
  unfold acceptedTimes
  split
  · rename_i same
    rw [List.filter_eq_self.mpr]
    intro call member
    simpa [same] using keyed call member
  · rename_i differs
    rw [List.filter_eq_nil_iff.mpr]
    · rfl
    · intro call member
      simpa [keyed call member] using Ne.symm differs

theorem Tracks.slid_history_le
    {config : RateLimitConfig}
    {time now : Int}
    {accepted : List Call}
    {limiter : RateLimiter}
    {key : Address}
    (tracks : Tracks config time accepted limiter)
    (reached : time ≤ now) :
    ∀ earlier ∈ slid (now - config.windowMs) (limiter.history key),
      earlier ≤ time := by
  intro earlier member
  rw [tracks.agrees key now reached] at member
  obtain ⟨call, isAccepted, rfl⟩ :=
    List.mem_map.mp (List.mem_of_mem_filter member)
  exact tracks.past call (List.mem_of_mem_filter isAccepted)

/-- Both ways a call ends: the history of its key is what the window shows of
it and the times the call adds, if any. -/
theorem Tracks.put
    {config : RateLimitConfig}
    {accepted newer : List Call}
    {limiter : RateLimiter}
    {now : Int}
    {key : Address}
    (sweeping : Bool)
    (tracks : Tracks config now accepted limiter)
    (own : ∀ call ∈ newer, call = { now := now, key := key }) :
    Tracks config now (accepted ++ newer)
      ((limiter.maintain (now - config.windowMs) now sweeping key).put key
        (slid (now - config.windowMs) (limiter.history key) ++
          newer.map Call.now)) where
  past := by
    intro earlier member
    rcases List.mem_append.mp member with old | new
    · exact tracks.past earlier old
    · rw [own earlier new]
  ordered := by
    intro other
    rw [history_put]
    split
    · have added : ∀ time ∈ newer.map Call.now, time = now := by
        intro time member
        obtain ⟨call, isNew, rfl⟩ := List.mem_map.mp member
        rw [own call isNew]
      apply List.pairwise_append.mpr
      refine ⟨(tracks.ordered key).filter _, ?_, ?_⟩
      · apply List.pairwise_of_forall_mem_list
        intro first inFirst second inSecond
        rw [added first inFirst, added second inSecond]
      · intro earlier isOld time isNew
        rw [added time isNew]
        exact tracks.slid_history_le le_rfl earlier isOld
    · rename_i differs
      rcases history_maintain (now - config.windowMs) now sweeping differs
          (tracks.ordered other) with same | ⟨dropped, _⟩
      · rw [same]
        exact tracks.ordered other
      · rw [dropped]
        exact List.Pairwise.nil
  agrees := by
    intro other later reached
    have forward : now - config.windowMs ≤ later - config.windowMs :=
      sub_le_sub_right reached config.windowMs
    rw [history_put, acceptedTimes_append, acceptedTimes_own own,
      slid_append, ← tracks.agrees other later reached]
    split
    · rename_i same
      rw [slid_append, slid_slid forward, same]
    · rename_i differs
      rw [slid_history_maintain now sweeping differs
        (tracks.ordered other) forward]
      exact (List.append_nil _).symm

/-- The reference counts what the limiter counts. -/
theorem Tracks.admits_iff
    {config : RateLimitConfig}
    {accepted : List Call}
    {limiter : RateLimiter}
    {call : Call}
    (tracks : Tracks config call.now accepted limiter) :
    admits config accepted call = true ↔
      ¬ config.maxPerWindow ≤
        (slid (call.now - config.windowMs)
          (limiter.history call.key)).length := by
  have counted :
      accepted.filter (fun earlier =>
        earlier.key = call.key ∧
          call.now - config.windowMs < earlier.now ∧
          earlier.now ≤ call.now) =
      (accepted.filter fun earlier => earlier.key = call.key).filter
        fun earlier => call.now - config.windowMs < earlier.now := by
    rw [List.filter_filter]
    apply List.filter_congr
    intro earlier member
    have reached := tracks.past earlier member
    simp [reached, and_comm]
  rw [tracks.agrees call.key call.now le_rfl]
  unfold admits slid acceptedTimes
  rw [counted, List.filter_map, List.length_map, decide_eq_true_iff,
    not_le]
  rfl

/-- One call: the limiter and the reference answer alike, and the limiter goes
on tracking the reference, whether it swept or not. -/
theorem Tracks.checkWith
    {config : RateLimitConfig}
    {accepted : List Call}
    {limiter : RateLimiter}
    {call : Call}
    (sweeping : Bool)
    (tracks : Tracks config call.now accepted limiter) :
    limiter.checkWith config sweeping call.now call.key =
        ((limiter.checkWith config sweeping call.now call.key).1,
          if admits config accepted call then .ok ()
          else .error .rate_limited) ∧
      Tracks config call.now
        (if admits config accepted call then accepted ++ [call]
          else accepted)
        (limiter.checkWith config sweeping call.now call.key).1 := by
  by_cases full : config.maxPerWindow ≤
      (slid (call.now - config.windowMs)
        (limiter.history call.key)).length
  · have rejected : ¬ admits config accepted call = true :=
      fun admitted => tracks.admits_iff.mp admitted full
    have kept :=
      @Tracks.put config accepted [] limiter call.now call.key sweeping
        tracks (by simp)
    simp only [List.append_nil, List.map_nil] at kept
    rw [if_neg rejected, if_neg rejected]
    simp only [RateLimiter.checkWith, if_pos full]
    exact ⟨trivial, kept⟩
  · have admitted := tracks.admits_iff.mpr full
    have kept :=
      @Tracks.put config accepted [call] limiter call.now call.key sweeping
        tracks (by simp)
    rw [if_pos admitted, if_pos admitted]
    simp only [RateLimiter.checkWith, if_neg full]
    exact ⟨trivial, kept⟩

/-- A run of calls under any schedule of sweeps. -/
theorem decisionsUnder_eq
    {config : RateLimitConfig}
    (calls : List Call)
    (schedule : Nat → Bool)
    {time : Int}
    {accepted : List Call}
    {limiter : RateLimiter}
    (tracks : Tracks config time accepted limiter)
    (forward : (time :: calls.map Call.now).Pairwise (· ≤ ·)) :
    decisionsUnder config schedule limiter calls =
      referenceDecisions config accepted calls := by
  induction calls generalizing schedule time accepted limiter with
  | nil => rfl
  | cons call calls ih =>
      obtain ⟨reached, rest⟩ := List.pairwise_cons.mp forward
      obtain ⟨answer, next⟩ :=
        (tracks.later (reached call.now (List.mem_cons_self ..))).checkWith
          (schedule 0)
      have tail := ih (fun index => schedule (index + 1)) next rest
      unfold decisionsUnder referenceDecisions
      rw [answer]
      dsimp only
      rw [tail]
      split <;> rfl

/-- The source's own moments of sweeping, as a schedule. -/
def sweepSchedule
    (config : RateLimitConfig) :
    RateLimiter → List Call → Nat → Bool
  | _, [], _ => false
  | limiter, call :: _, 0 => limiter.sweepDue config call.now
  | limiter, call :: calls, index + 1 =>
      sweepSchedule config (limiter.check config call.now call.key).1 calls
        index

theorem decisions_eq_decisionsUnder
    (config : RateLimitConfig)
    (limiter : RateLimiter)
    (calls : List Call) :
    decisions config limiter calls =
      decisionsUnder config (sweepSchedule config limiter calls) limiter
        calls := by
  induction calls generalizing limiter with
  | nil => rfl
  | cons call calls ih =>
      unfold decisions decisionsUnder
      exact congrArg _ (ih _)

/-- With a clock that never goes back, the limiter answers as the reference
does, and as it would with its sweeps at any other calls. -/
theorem decisions_sliding
    (config : RateLimitConfig)
    (calls : List Call)
    (forward : (calls.map Call.now).Pairwise (· ≤ ·)) :
    decisions config initial calls = referenceDecisions config [] calls ∧
      ∀ schedule,
        decisionsUnder config schedule initial calls =
          decisions config initial calls := by
  have under : ∀ schedule,
      decisionsUnder config schedule initial calls =
        referenceDecisions config [] calls := by
    intro schedule
    cases calls with
    | nil => rfl
    | cons call calls =>
        apply decisionsUnder_eq (call :: calls) schedule
          (tracks_initial config call.now)
        refine List.pairwise_cons.mpr ⟨?_, forward⟩
        intro now member
        rcases List.mem_cons.mp member with first | later
        · exact first.ge
        · exact (List.pairwise_cons.mp forward).1 now later
  have same := decisions_eq_decisionsUnder config initial calls
  constructor
  · rw [same]
    exact under _
  · intro schedule
    rw [under schedule, same]
    exact (under _).symm

/-- Two calls of one signer, a third its window is full for, one of another
signer, and a last one after the window has moved on. -/
def sampleCalls : List Call :=
  [⟨10, 1⟩, ⟨20, 1⟩, ⟨30, 1⟩, ⟨35, 2⟩, ⟨111, 1⟩]

theorem decisions_sliding_sample :
    decisions ⟨100, 2⟩ initial sampleCalls =
        [.ok (), .ok (), .error .rate_limited, .ok (), .ok ()] ∧
      decisions ⟨100, 2⟩ initial sampleCalls =
        referenceDecisions ⟨100, 2⟩ [] sampleCalls ∧
      ∀ schedule,
        decisionsUnder ⟨100, 2⟩ schedule initial sampleCalls =
          decisions ⟨100, 2⟩ initial sampleCalls :=
  ⟨rfl, decisions_sliding ⟨100, 2⟩ sampleCalls (by decide)⟩

end RateLimiter

end Bam
