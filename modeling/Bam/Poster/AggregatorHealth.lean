import Bam.Lib.Runs
import Bam.Poster.Aggregator
import Bam.Poster.AggregatorLoop

namespace Bam
namespace AggregatorLoop

/-!
# What the aggregator reports about its tags

`AggregatorLoop.tick` with the health counters it leaves behind.  The counters
are set when a pack is planned; the submission comes after that, and what
becomes of it does not reach them.  A history says what the ticks did, and the
signals of a tag are truthful when they are what its history says.
-/

/-- `PackedSubmitOutcome`. -/
inductive PackedSubmitOutcome where
  | included (outcome : PackedSubmitIncluded)
  | retryable (detail : String)
  | permanent (detail : String)
  deriving Repr, DecidableEq

/-- An `AggregatorLoop`; `attempts` is the count of its `BackoffState`. -/
structure LoopState where
  aggregator : AggregatorState
  attempts : Nat
  permanentlyStopped : Bool
  lastPackedTxHash : Option Bytes32
  lastPackedTagCount : Nat

def LoopState.initial : LoopState where
  aggregator := fun _ => ⟨0, none, 0⟩
  attempts := 0
  permanentlyStopped := false
  lastPackedTxHash := none
  lastPackedTagCount := 0

/-- What a tick resolves to. -/
inductive TickOutcome where
  | idle
  | success
  | retry
  | permanent
  deriving Repr, DecidableEq

/-- What a tick rejects with. -/
inductive TickError where
  | snapshot (error : StoreError)
  | aggregator (error : AggregatorError)
  | confirm (error : ConfirmError)
  deriving Repr, DecidableEq

/-- A call of `tick`: the store and the clock it reads, and the submission it
is answered with. -/
structure TickCall where
  store : Store
  now : Int
  buildAndSubmitMulti : PackResult → PackedSubmitOutcome
  submittedAt : Int

/-- The tags a loop gets to, up to the one it throws at. -/
def reachedTags
    (iteration : Bytes32 → Except BatchError (Option Enriched)) :
    List Bytes32 → List Bytes32
  | [] => []
  | tag :: rest =>
      match iteration tag with
      | .error _ => [tag]
      | .ok _ => tag :: reachedTags iteration rest

/-- What an aggregator tick that throws has changed: it has seen the pools of
the tags it got to. -/
def observeReached
    (opts : AggregatorOptions)
    (input : AggregatorTickInput)
    (state : AggregatorState) : AggregatorState :=
  observePending
    { opts with tags := reachedTags (triggerOf opts input) opts.tags }
    input state

/-- `AggregatorLoop.tick`. -/
def tick
    (keccak256 : Bytes → Bytes32)
    (opts : AggregatorOptions)
    (loopOpts : AggregatorLoopOptions)
    (loop : LoopState)
    (call : TickCall) :
    LoopState × Store × Except TickError TickOutcome :=
  if loop.permanentlyStopped then (loop, call.store, .ok .permanent)
  else
    match snapshotPools call.store opts.tags with
    | .error error => (loop, call.store, .error (.snapshot error))
    | .ok pool =>
        let input : AggregatorTickInput := { pool := pool, now := call.now }
        match aggregatorTick opts loop.aggregator input with
        | .error error =>
            ({ loop with
                aggregator := observeReached opts input loop.aggregator },
              call.store, .error (.aggregator error))
        | .ok (state, none) =>
            ({ loop with aggregator := state }, call.store, .ok .idle)
        | .ok (state, some pack) =>
            let ticked := { loop with aggregator := state }
            if pack.plan.included = [] then
              (ticked, call.store, .ok .idle)
            else
              match call.buildAndSubmitMulti pack with
              | .included outcome =>
                  match confirmIncluded keccak256 loopOpts call.store
                      outcome call.submittedAt with
                  | .error error =>
                      (ticked, call.store, .error (.confirm error))
                  | .ok next =>
                      ({ ticked with
                          attempts := 0
                          lastPackedTxHash := some outcome.txHash
                          lastPackedTagCount := outcome.entries.length },
                        next, .ok .success)
              | .retryable _ =>
                  ({ ticked with attempts := loop.attempts + 1 },
                    call.store, .ok .retry)
              | .permanent _ =>
                  ({ ticked with
                      attempts := loop.attempts + 1
                      permanentlyStopped := true },
                    call.store, .ok .permanent)

/-- `PackingLossSnapshot`. -/
structure PackingLossSnapshot where
  contentTag : Bytes32
  pendingCount : Nat
  packingLossStreak : Nat
  lastIncludedAt : Option Int
  deriving Repr, DecidableEq

/-- `packingLossSnapshot`. -/
def packingLossSnapshot
    (opts : AggregatorOptions)
    (loop : LoopState) : List PackingLossSnapshot :=
  opts.tags.map fun tag =>
    let tagState := loop.aggregator tag
    { contentTag := tag
      pendingCount := tagState.pendingCount
      packingLossStreak := tagState.packingLossStreak
      lastIncludedAt := tagState.lastIncludedAt }

section History

/-- The policy wants a tag to be shipped. -/
def triggerFires
    (opts : AggregatorOptions)
    (input : AggregatorTickInput)
    (tag : Bytes32) : Bool :=
  !(input.pool tag).isEmpty &&
    (opts.policy.select tag input.pool opts.blobCapacityBytes
      input.now).any fun messages => !messages.isEmpty

/-- The tags whose trigger fires in a tick. -/
def firedTags
    (opts : AggregatorOptions)
    (input : AggregatorTickInput) : List Bytes32 :=
  (reachedTags (triggerOf opts input) opts.tags).filter
    (triggerFires opts input)

/-- What a tick did: the tags it fired for, those of the transaction it handed
over, whether that was included, and whether the planning threw. -/
structure TickEvent where
  now : Int
  fired : List Bytes32
  planned : List Bytes32
  included : Bool
  thrown : Bool
  deriving Repr, DecidableEq

/-- A tick that got to no tag. -/
def TickEvent.nothing (now : Int) : TickEvent where
  now := now
  fired := []
  planned := []
  included := false
  thrown := false

/-- The transaction of a tick was included with this tag. -/
def TickEvent.lands
    (event : TickEvent)
    (tag : Bytes32) : Bool :=
  event.included && decide (tag ∈ event.planned)

/-- The submission of a pack was answered `included`. -/
def PackedSubmitOutcome.isIncluded : PackedSubmitOutcome → Bool
  | .included _ => true
  | .retryable _ => false
  | .permanent _ => false

def tickEvent
    (opts : AggregatorOptions)
    (loop : LoopState)
    (call : TickCall) : TickEvent :=
  if loop.permanentlyStopped then .nothing call.now
  else
    match snapshotPools call.store opts.tags with
    | .error _ => .nothing call.now
    | .ok pool =>
        let input : AggregatorTickInput := { pool := pool, now := call.now }
        let quiet : TickEvent :=
          { TickEvent.nothing call.now with fired := firedTags opts input }
        match aggregatorTick opts loop.aggregator input with
        | .error _ => { quiet with thrown := true }
        | .ok (_, none) => quiet
        | .ok (_, some pack) =>
            { quiet with
              planned := pack.plan.included.map PackPlanIncluded.contentTag
              included := (call.buildAndSubmitMulti pack).isIncluded }

/-- The time of the last tick whose transaction landed with a tag; the latest
tick comes first. -/
def lastLanding
    (tag : Bytes32) : List TickEvent → Option Int
  | [] => none
  | event :: earlier =>
      if event.lands tag then some event.now else lastLanding tag earlier

/-- How many ticks fired for a tag since it last landed. -/
def missedSinceLanding
    (tag : Bytes32) : List TickEvent → Nat
  | [] => 0
  | event :: earlier =>
      if event.lands tag then 0
      else if tag ∈ event.fired then missedSinceLanding tag earlier + 1
      else missedSinceLanding tag earlier

end History

/-- A loop and what its ticks did. -/
structure Observed where
  loop : LoopState
  history : List TickEvent

def Observed.initial : Observed where
  loop := .initial
  history := []

def observedStep
    (keccak256 : Bytes → Bytes32)
    (opts : AggregatorOptions)
    (loopOpts : AggregatorLoopOptions)
    (observed : Observed)
    (call : TickCall) : Option Observed :=
  some {
    loop := (tick keccak256 opts loopOpts observed.loop call).1
    history := tickEvent opts observed.loop call :: observed.history }

/-- What health reads of a tag is what happened to it. -/
def Truthful
    (opts : AggregatorOptions)
    (tag : Bytes32)
    (observed : Observed) : Prop :=
  ∀ entry ∈ packingLossSnapshot opts observed.loop,
    entry.contentTag = tag →
      entry.lastIncludedAt = lastLanding tag observed.history ∧
        entry.packingLossStreak =
          missedSinceLanding tag observed.history

/-- A tick that leaves the signals of a tag right.  A tag that lands without
having fired has no streak to end; a pack that fails holds the tag only as a
passenger, at the time of its last landing; a tag that fires and is left out is
configured once, and the tick does not throw. -/
def Accounts
    (opts : AggregatorOptions)
    (tag : Bytes32)
    (observed : Observed)
    (call : TickCall) : Prop :=
  let event := tickEvent opts observed.loop call
  let before := observed.loop.aggregator tag
  if event.lands tag then
    tag ∈ event.fired ∨ before.packingLossStreak = 0
  else if tag ∈ event.planned then
    tag ∉ event.fired ∧ before.lastIncludedAt = some event.now
  else
    tag ∈ event.fired → event.thrown = false ∧ opts.tags.count tag = 1

section Planning

variable {opts : AggregatorOptions} {input : AggregatorTickInput}

/-- A loop that ends gets to every tag. -/
theorem reachedTags_of_collect
    {iteration : Bytes32 → Except BatchError (Option Enriched)}
    {tags : List Bytes32}
    {entries : List Enriched}
    (collected : collect iteration tags = .ok entries) :
    reachedTags iteration tags = tags := by
  induction tags generalizing entries with
  | nil => rfl
  | cons tag rest inductionHypothesis =>
      rw [collect] at collected
      cases step : iteration tag with
      | error error =>
          rw [step] at collected
          cases collected
      | ok result =>
          rw [step] at collected
          rw [reachedTags, step]
          cases later : collect iteration rest with
          | error error =>
              rw [later] at collected
              cases result with
              | none => cases collected
              | some enriched => cases collected
          | ok others =>
              exact congrArg (tag :: ·) (inductionHypothesis later)

/-- A loop that ends has had an answer for every tag. -/
theorem iteration_of_collect
    {iteration : Bytes32 → Except BatchError (Option Enriched)}
    {tags : List Bytes32}
    {entries : List Enriched}
    (collected : collect iteration tags = .ok entries)
    {tag : Bytes32}
    (member : tag ∈ tags) :
    ∃ result, iteration tag = .ok result := by
  induction tags generalizing entries with
  | nil => cases member
  | cons first rest inductionHypothesis =>
      rw [collect] at collected
      cases step : iteration first with
      | error error =>
          rw [step] at collected
          cases collected
      | ok result =>
          rw [step] at collected
          rcases List.mem_cons.mp member with rfl | inRest
          · exact ⟨result, step⟩
          · cases later : collect iteration rest with
            | error error =>
                rw [later] at collected
                cases result with
                | none => cases collected
                | some enriched => cases collected
            | ok others => exact inductionHypothesis later inRest

/-- An iteration of the trigger loop selects something for a tag that fires. -/
theorem triggerOf_ok
    {tag : Bytes32}
    {result : Option Enriched}
    (step : triggerOf opts input tag = .ok result) :
    result.isSome = triggerFires opts input tag ∧
      ∀ entry, result = some entry →
        entry.selection.contentTag = tag := by
  unfold triggerOf enrichPicked at step
  unfold triggerFires
  by_cases empty : input.pool tag = []
  · rw [if_pos empty] at step
    cases step
    simp [empty]
  · rw [if_neg empty] at step
    cases picked : opts.policy.select tag input.pool
        opts.blobCapacityBytes input.now with
    | none =>
        rw [picked] at step
        cases step
        simp
    | some messages =>
        rw [picked] at step
        dsimp only at step
        by_cases noMessages : messages = []
        · rw [if_pos noMessages] at step
          cases step
          simp [noMessages]
        · rw [if_neg noMessages] at step
          cases enriched : enrich opts input tag messages with
          | error error =>
              rw [enriched] at step
              cases step
          | ok entry =>
              rw [enriched] at step
              cases step
              obtain ⟨data, _, sameTag, _⟩ := enrich_ok enriched
              refine ⟨by simp [empty, noMessages], ?_⟩
              intro other same
              cases same
              exact sameTag

/-- `firedByTrigger` holds the tags that fire. -/
theorem mem_firedByTrigger_iff
    {fired : List Enriched}
    (collected : collect (triggerOf opts input) opts.tags = .ok fired)
    (tag : Bytes32) :
    tag ∈ fired.map (fun entry => entry.selection.contentTag) ↔
      tag ∈ firedTags opts input := by
  rw [firedTags, reachedTags_of_collect collected, List.mem_filter,
    List.mem_map]
  constructor
  · rintro ⟨entry, member, rfl⟩
    obtain ⟨tag, isTag, step⟩ := (mem_collect collected).mp member
    obtain ⟨fires, sameTag⟩ := triggerOf_ok step
    rw [sameTag entry rfl]
    exact ⟨isTag, fires.symm⟩
  · rintro ⟨isTag, fires⟩
    obtain ⟨result, step⟩ := iteration_of_collect collected isTag
    obtain ⟨selects, sameTag⟩ := triggerOf_ok step
    rw [fires] at selects
    obtain ⟨entry, rfl⟩ := Option.isSome_iff_exists.mp selects
    exact ⟨entry, (mem_collect collected).mpr ⟨tag, isTag, step⟩,
      sameTag entry rfl⟩

/-- The streak update of a tag, once for each time it is configured. -/
theorem updateStreaks_apply
    (includedTags firedByTrigger : List Bytes32)
    (state : AggregatorState)
    (tag : Bytes32) :
    updateStreaks opts input includedTags firedByTrigger state tag =
      (updateStreak input includedTags firedByTrigger tag)^[
        opts.tags.count tag] (state tag) := by
  unfold updateStreaks
  induction opts.tags generalizing state with
  | nil => rfl
  | cons first rest inductionHypothesis =>
      rw [List.foldl_cons, inductionHypothesis]
      by_cases same : first = tag
      · subst same
        rw [Function.update_self, List.count_cons_self,
          Function.iterate_succ_apply]
      · rw [Function.update_of_ne (Ne.symm same),
          List.count_cons_of_ne same]

/-- What a tick of the aggregator leaves behind. -/
theorem aggregatorTick_ok
    {state next : AggregatorState}
    {pack : Option PackResult}
    (ticked : aggregatorTick opts state input = .ok (next, pack)) :
    ∃ fired,
      collect (triggerOf opts input) opts.tags = .ok fired ∧
        match pack with
        | none => fired = [] ∧ next = observePending opts input state
        | some pack =>
            next = updateStreaks opts input
              (pack.plan.included.map PackPlanIncluded.contentTag)
              (fired.map fun entry => entry.selection.contentTag)
              (observePending opts input state) := by
  unfold aggregatorTick at ticked
  split at ticked
  · cases ticked
  rename_i fired firedCollected
  refine ⟨fired, firedCollected, ?_⟩
  dsimp only at ticked
  split at ticked
  · rename_i noneFired
    cases ticked
    exact ⟨noneFired, rfl⟩
  split at ticked
  · cases ticked
  split at ticked
  · cases ticked
  · cases ticked
    rfl

end Planning

section Signals

variable {keccak256 : Bytes → Bytes32}
variable {opts : AggregatorOptions} {loopOpts : AggregatorLoopOptions}
variable {tag : Bytes32}

/-- Seeing the pools does not touch the signals. -/
theorem signals_observePending
    (input : AggregatorTickInput)
    (state : AggregatorState)
    (tag : Bytes32) :
    (observePending opts input state tag).lastIncludedAt =
        (state tag).lastIncludedAt ∧
      (observePending opts input state tag).packingLossStreak =
        (state tag).packingLossStreak := by
  unfold observePending
  split
  · exact ⟨rfl, rfl⟩
  · exact ⟨rfl, rfl⟩

/-- The streak update of a tag that is configured so many times. -/
theorem iterate_updateStreak
    (input : AggregatorTickInput)
    (includedTags firedByTrigger : List Bytes32)
    (tag : Bytes32)
    (times : Nat)
    (tagState : PerTagState) :
    (updateStreak input includedTags firedByTrigger tag)^[times + 1]
        tagState = {
      pendingCount := tagState.pendingCount
      lastIncludedAt :=
        if tag ∈ includedTags then some input.now
        else tagState.lastIncludedAt
      packingLossStreak :=
        if tag ∈ includedTags then
          if tag ∈ firedByTrigger then 0
          else tagState.packingLossStreak
        else if tag ∈ firedByTrigger then
          tagState.packingLossStreak + (times + 1)
        else tagState.packingLossStreak } := by
  induction times generalizing tagState with
  | zero =>
      simp only [Function.iterate_succ_apply, Function.iterate_zero_apply,
        updateStreak]
      by_cases isIncluded : tag ∈ includedTags
      · simp only [if_pos isIncluded]
      · by_cases fires : tag ∈ firedByTrigger
        · simp only [if_neg isIncluded, if_pos fires]
        · simp only [if_neg isIncluded, if_neg fires]
  | succ times inductionHypothesis =>
      rw [Function.iterate_succ_apply, inductionHypothesis, updateStreak]
      by_cases isIncluded : tag ∈ includedTags
      · by_cases fires : tag ∈ firedByTrigger
        · simp only [if_pos isIncluded, if_pos fires]
        · simp only [if_pos isIncluded, if_neg fires]
      · by_cases fires : tag ∈ firedByTrigger
        · simp only [if_neg isIncluded, if_pos fires]
          congr 1
          omega
        · simp only [if_neg isIncluded, if_neg fires]

/-- The health counters after a tick; the submission has no part in them. -/
theorem aggregator_tick
    (loop : LoopState)
    (call : TickCall) :
    (tick keccak256 opts loopOpts loop call).1.aggregator =
      if loop.permanentlyStopped then loop.aggregator
      else
        match snapshotPools call.store opts.tags with
        | .error _ => loop.aggregator
        | .ok pool =>
            match aggregatorTick opts loop.aggregator
                { pool := pool, now := call.now } with
            | .error _ =>
                observeReached opts { pool := pool, now := call.now }
                  loop.aggregator
            | .ok (state, _) => state := by
  unfold tick
  cases loop.permanentlyStopped with
  | true => rfl
  | false =>
      simp only [Bool.false_eq_true, if_false]
      cases snapshotPools call.store opts.tags with
      | error error => rfl
      | ok pool =>
          dsimp only
          cases aggregatorTick opts loop.aggregator
              { pool := pool, now := call.now } with
          | error error => rfl
          | ok result =>
              obtain ⟨state, pack⟩ := result
              cases pack with
              | none => rfl
              | some pack =>
                  dsimp only
                  split
                  · rfl
                  cases call.buildAndSubmitMulti pack with
                  | included outcome =>
                      dsimp only
                      split <;> rfl
                  | retryable detail => rfl
                  | permanent detail => rfl

/-- The signals of a tag after a tick: they follow what was planned. -/
theorem signals_tick
    (configured : tag ∈ opts.tags)
    (loop : LoopState)
    (call : TickCall) :
    let event := tickEvent opts loop call
    let before := loop.aggregator tag
    let after := (tick keccak256 opts loopOpts loop call).1.aggregator tag
    after.lastIncludedAt =
        (if tag ∈ event.planned then some event.now
        else before.lastIncludedAt) ∧
      after.packingLossStreak =
        if tag ∈ event.planned then
          if tag ∈ event.fired then 0 else before.packingLossStreak
        else if tag ∈ event.fired ∧ event.thrown = false then
          before.packingLossStreak + opts.tags.count tag
        else before.packingLossStreak := by
  obtain ⟨times, isCount⟩ : ∃ times, opts.tags.count tag = times + 1 :=
    Nat.exists_eq_succ_of_ne_zero (List.count_pos_iff.mpr configured).ne'
  dsimp only
  rw [aggregator_tick]
  unfold tickEvent
  cases loop.permanentlyStopped with
  | true => simp [TickEvent.nothing]
  | false =>
      cases snapshotPools call.store opts.tags with
      | error error => simp [TickEvent.nothing]
      | ok pool =>
          have observed := @signals_observePending opts
            { pool := pool, now := call.now } loop.aggregator tag
          simp only [Bool.false_eq_true, if_false]
          cases ticked : aggregatorTick opts loop.aggregator
              { pool := pool, now := call.now } with
          | error error =>
              have reached := @signals_observePending
                { opts with
                  tags := reachedTags (triggerOf opts
                    { pool := pool, now := call.now }) opts.tags }
                { pool := pool, now := call.now } loop.aggregator tag
              simpa [TickEvent.nothing, observeReached] using reached
          | ok result =>
              obtain ⟨next, pack⟩ := result
              obtain ⟨fired, collected, effect⟩ := aggregatorTick_ok ticked
              have fires := mem_firedByTrigger_iff collected tag
              cases pack with
              | none =>
                  obtain ⟨noneFired, isNext⟩ := effect
                  have quiet : tag ∉ firedTags opts
                      { pool := pool, now := call.now } := by
                    rw [← fires, noneFired]
                    exact List.not_mem_nil
                  subst isNext
                  simpa [TickEvent.nothing, quiet] using observed
              | some pack =>
                  dsimp only at effect
                  subst effect
                  dsimp only
                  rw [updateStreaks_apply, isCount, iterate_updateStreak]
                  simp only [fires, observed.1, observed.2,
                    TickEvent.nothing, and_true]

/-- Health reads the counters of a tag. -/
theorem truthful_iff
    (configured : tag ∈ opts.tags)
    {observed : Observed} :
    Truthful opts tag observed ↔
      (observed.loop.aggregator tag).lastIncludedAt =
          lastLanding tag observed.history ∧
        (observed.loop.aggregator tag).packingLossStreak =
          missedSinceLanding tag observed.history := by
  unfold Truthful packingLossSnapshot
  constructor
  · intro truthful
    exact truthful _ (List.mem_map_of_mem configured) rfl
  · intro same entry member isTag
    obtain ⟨other, _, rfl⟩ := List.mem_map.mp member
    dsimp only at isTag
    subst isTag
    exact same

/-- A tick keeps the signals of a tag right exactly if it accounts for it. -/
theorem truthful_step_iff
    (configured : tag ∈ opts.tags)
    {observed next : Observed}
    {call : TickCall}
    (truthful : Truthful opts tag observed)
    (taken :
      observedStep keccak256 opts loopOpts observed call = some next) :
    Truthful opts tag next ↔ Accounts opts tag observed call := by
  obtain ⟨last, streak⟩ := (truthful_iff configured).mp truthful
  obtain ⟨nextLast, nextStreak⟩ :=
    @signals_tick keccak256 opts loopOpts tag configured observed.loop call
  cases taken
  rw [truthful_iff configured]
  dsimp only
  rw [nextLast, nextStreak, lastLanding, missedSinceLanding, ← last,
    ← streak]
  unfold Accounts
  dsimp only
  cases landed : (tickEvent opts observed.loop call).lands tag with
  | true =>
      have isPlanned :
          tag ∈ (tickEvent opts observed.loop call).planned := by
        simp only [TickEvent.lands, Bool.and_eq_true,
          decide_eq_true_eq] at landed
        exact landed.2
      simp only [if_pos isPlanned, if_true, true_and]
      by_cases fires : tag ∈ (tickEvent opts observed.loop call).fired
      · simp [fires]
      · simp [fires]
  | false =>
      simp only [Bool.false_eq_true, if_false]
      by_cases isPlanned :
          tag ∈ (tickEvent opts observed.loop call).planned
      · simp only [if_pos isPlanned]
        by_cases fires : tag ∈ (tickEvent opts observed.loop call).fired
        · simp [fires]
        · simp [fires, eq_comm]
      · simp only [if_neg isPlanned, true_and]
        by_cases fires : tag ∈ (tickEvent opts observed.loop call).fired
        · simp only [fires, true_and, if_true, forall_const]
          cases (tickEvent opts observed.loop call).thrown with
          | true => simp
          | false => simp
        · simp [fires]

end Signals

/-- The signals of a tag are right throughout a run exactly if every tick of it
accounts for the tag. -/
theorem healthSignals_truthful_iff
    (keccak256 : Bytes → Bytes32)
    (opts : AggregatorOptions)
    (loopOpts : AggregatorLoopOptions)
    (tag : Bytes32)
    (configured : tag ∈ opts.tags)
    (calls : List TickCall) :
    Runs.AllStates (observedStep keccak256 opts loopOpts)
        (Truthful opts tag) .initial calls ↔
      Runs.AllSteps (observedStep keccak256 opts loopOpts)
        (Accounts opts tag) .initial calls := by
  apply @Runs.allStates_iff_allSteps _ _ _ (fun _ => True)
  · intro observed call next _ _
    trivial
  · intro observed call next _ truthful taken
    exact truthful_step_iff configured truthful taken
  · trivial
  · rw [truthful_iff configured]
    exact ⟨rfl, rfl⟩

/-- An aggregator of one tag, as the Poster runs it by default. -/
def sampleAggregator : AggregatorOptions where
  policy := defaultBatchPolicy .empty
  tags := [0x7a]
  maxTagsPerPack := 8
  capacityFEs := none
  capacityBytes := none
  blobCapacityBytes := DEFAULT_BLOB_CAPACITY_BYTES
  encodeBatch := none

/-- A store with one message, which has waited for the age trigger. -/
def sampleBacklog : Store :=
  Store.empty.putMessage
    (StoreTxnPendingRow.toMessageRow {
      contentTag := 0x7a
      sender := 0x5e
      nonce := 0
      contents := [0x68, 0x69]
      signature := List.replicate 65 0x01
      messageHash := 0x01
      chainId := 1
      ingestedAt := 0
      ingestSeq := 1 })

/-- A tick over that store, answered in some way. -/
def sampleCall (answer : PackedSubmitOutcome) : TickCall where
  store := sampleBacklog
  now := 60000
  buildAndSubmitMulti := fun _ => answer
  submittedAt := 60010

/-- The run of a tick whose submission fails but can be retried. -/
def failedRun : List TickCall :=
  [sampleCall (.retryable "submission_failed")]

theorem failedRun_signals :
    let step := observedStep (fun _ => 0) sampleAggregator ⟨1, 32⟩
    (Runs.exec? step .initial failedRun).map (fun observed =>
        ((observed.loop.aggregator 0x7a).lastIncludedAt,
          (observed.loop.aggregator 0x7a).packingLossStreak,
          lastLanding 0x7a observed.history,
          missedSinceLanding 0x7a observed.history)) =
      some (some 60000, 0, none, 1) := by
  decide +kernel

/-- A submission that fails is reported as a landing. -/
theorem healthSignals_failed_submission :
    ¬ Runs.AllStates
      (observedStep (fun _ => 0) sampleAggregator ⟨1, 32⟩)
      (Truthful sampleAggregator 0x7a) .initial failedRun := by
  intro all
  obtain ⟨observed, executed, signals⟩ :=
    Option.map_eq_some_iff.mp failedRun_signals
  have truthful := (truthful_iff (by decide)).mp (all.final executed)
  have reported : (observed.loop.aggregator 0x7a).lastIncludedAt =
      some 60000 := congrArg Prod.fst signals
  have never : lastLanding 0x7a observed.history = none :=
    congrArg (fun values => values.2.2.1) signals
  rw [truthful.1, never] at reported
  cases reported

/-- The run of a tick that lands and of one that fails. -/
theorem healthSignals_truthful_iff_sample :
    let step := observedStep (fun _ => 0) sampleAggregator ⟨1, 32⟩
    let calls :=
      [sampleCall (.included {
          txHash := 0xab
          blockNumber := 7
          txIndex := 0
          blobVersionedHash := 0x0b
          submitter := 0x5e
          entries := [] }),
        sampleCall (.retryable "submission_failed")]
    0x7a ∈ sampleAggregator.tags ∧
      (Runs.AllStates step (Truthful sampleAggregator 0x7a) .initial
          calls ↔
        Runs.AllSteps step (Accounts sampleAggregator 0x7a) .initial
          calls) :=
  ⟨by decide, healthSignals_truthful_iff _ sampleAggregator ⟨1, 32⟩ 0x7a
    (by decide) _⟩

end AggregatorLoop
end Bam
