import Bam.Poster.Pack
import Bam.Poster.Policy

namespace Bam

/-!
# The cross-tag aggregator

`createAggregator.tick`: ask the policy tag by tag whether to ship, let the
other tags ride along, order all selections by age and plan one blob.  A tick
is a function of the pools, the clock and the per-tag health counters.
-/

/-- The encoder the aggregator is configured with. -/
abbrev BatchEncoder :=
  List BAMMessage → List Bytes → Except BatchError Bytes

/-- `encodeBatch(msgs, signatures).data`. -/
def encodeBatchData : BatchEncoder :=
  fun messages signatures =>
    match encodeBatch messages signatures .none with
    | .error error => .error error
    | .ok encoded => .ok encoded.data

structure AggregatorTickInput where
  pool : PoolView
  now : Int

structure AggregatorBatchSelection where
  contentTag : Bytes32
  messages : List DecodedMessage
  payloadBytes : Bytes
  deriving Repr, DecidableEq

/-- `includedSelections` lists the entries of the source's map. -/
structure PackResult where
  plan : PackPlan
  includedSelections : List AggregatorBatchSelection
  excludedTags : List Bytes32
  deriving Repr, DecidableEq

/-- `PackResult.includedSelections.get`. -/
def PackResult.selection?
    (pack : PackResult)
    (tag : Bytes32) : Option AggregatorBatchSelection :=
  pack.includedSelections.find? fun selection =>
    selection.contentTag = tag

structure AggregatorOptions where
  policy : BatchPolicy
  tags : List Bytes32
  maxTagsPerPack : Nat
  capacityFEs : Option Nat
  capacityBytes : Option Nat
  blobCapacityBytes : Nat
  encodeBatch : Option BatchEncoder

structure PerTagState where
  packingLossStreak : Nat
  lastIncludedAt : Option Int
  pendingCount : Nat
  deriving Repr, DecidableEq

/-- The health counters of every tag. -/
abbrev AggregatorState := Bytes32 → PerTagState

/-- What a tick throws. -/
inductive AggregatorError where
  | encode (error : BatchError)
  | neverEnriched (contentTag : Bytes32)
  deriving Repr, DecidableEq

namespace AggregatorOptions

def encode (opts : AggregatorOptions) : BatchEncoder :=
  opts.encodeBatch.getD encodeBatchData

def capacity (opts : AggregatorOptions) : PackCapacity where
  maxFEs := opts.capacityFEs.getD defaultPackCapacity.maxFEs
  maxBytes := opts.capacityBytes.getD defaultPackCapacity.maxBytes

end AggregatorOptions

/-- A per-tag selection with what the planner needs of it. -/
structure Enriched where
  selection : PerTagSelection
  batch : AggregatorBatchSelection
  deriving Repr, DecidableEq

/-- `pool[0].ingestedAt ?? input.now`. -/
def oldestIngestedAt
    (input : AggregatorTickInput)
    (tag : Bytes32) : Int :=
  ((input.pool tag).head?.bind DecodedMessage.ingestedAt).getD input.now

/-- Encode the messages picked for a tag. -/
def enrich
    (opts : AggregatorOptions)
    (input : AggregatorTickInput)
    (tag : Bytes32)
    (messages : List DecodedMessage) : Except BatchError Enriched :=
  match opts.encode
      (messages.map DecodedMessage.toBAMMessage)
      (messages.map DecodedMessage.signature) with
  | .error error => .error error
  | .ok data =>
      .ok {
        selection := {
          contentTag := tag
          payloadBytes := data
          oldestIngestedAt := oldestIngestedAt input tag
          pendingMessageCount := (input.pool tag).length }
        batch := {
          contentTag := tag
          messages := messages
          payloadBytes := data } }

/-- One iteration of either per-tag loop, given what the policy picked. -/
def enrichPicked
    (opts : AggregatorOptions)
    (input : AggregatorTickInput)
    (tag : Bytes32)
    (picked : Option (List DecodedMessage)) :
    Except BatchError (Option Enriched) :=
  if input.pool tag = [] then .ok none
  else
    match picked with
    | none => .ok none
    | some messages =>
        if messages = [] then .ok none
        else
          match enrich opts input tag messages with
          | .error error => .error error
          | .ok enriched => .ok (some enriched)

/-- An iteration of the trigger loop. -/
def triggerOf
    (opts : AggregatorOptions)
    (input : AggregatorTickInput)
    (tag : Bytes32) : Except BatchError (Option Enriched) :=
  enrichPicked opts input tag
    (opts.policy.select tag input.pool opts.blobCapacityBytes input.now)

/-- An iteration of the passenger loop. -/
def passengerOf
    (opts : AggregatorOptions)
    (input : AggregatorTickInput)
    (firedByTrigger : List Bytes32)
    (tag : Bytes32) : Except BatchError (Option Enriched) :=
  if tag ∈ firedByTrigger then .ok none
  else
    enrichPicked opts input tag
      (opts.policy.fill tag input.pool opts.blobCapacityBytes)

/-- Run an iteration for every tag and keep what it selects. -/
def collect
    (iteration : Bytes32 → Except BatchError (Option Enriched)) :
    List Bytes32 → Except BatchError (List Enriched)
  | [] => .ok []
  | tag :: rest =>
      match iteration tag with
      | .error error => .error error
      | .ok none => collect iteration rest
      | .ok (some enriched) =>
          match collect iteration rest with
          | .error error => .error error
          | .ok later => .ok (enriched :: later)

/-- `enriched.get(tag)`: the entry set last. -/
def enrichedGet
    (entries : List Enriched)
    (tag : Bytes32) : Option AggregatorBatchSelection :=
  (entries.reverse.find? fun entry =>
    entry.batch.contentTag = tag).map Enriched.batch

/-- The loop that mirrors `plan.included` into `includedSelections`. -/
def pruneSelections
    (entries : List Enriched) :
    List PackPlanIncluded →
      Except AggregatorError (List AggregatorBatchSelection)
  | [] => .ok []
  | segment :: rest =>
      match enrichedGet entries segment.contentTag with
      | none => .error (.neverEnriched segment.contentTag)
      | some batch =>
          match pruneSelections entries rest with
          | .error error => .error error
          | .ok later => .ok (batch :: later)

/-- `tagState.pendingCount = pool.length` for every tag. -/
def observePending
    (opts : AggregatorOptions)
    (input : AggregatorTickInput)
    (state : AggregatorState) : AggregatorState :=
  fun tag =>
    if tag ∈ opts.tags then
      { state tag with pendingCount := (input.pool tag).length }
    else state tag

/-- An iteration of the streak update. -/
def updateStreak
    (input : AggregatorTickInput)
    (includedTags firedByTrigger : List Bytes32)
    (tag : Bytes32)
    (tagState : PerTagState) : PerTagState :=
  if tag ∈ includedTags then
    { tagState with
      lastIncludedAt := some input.now
      packingLossStreak :=
        if tag ∈ firedByTrigger then 0
        else tagState.packingLossStreak }
  else if tag ∈ firedByTrigger then
    { tagState with
      packingLossStreak := tagState.packingLossStreak + 1 }
  else tagState

/-- The streak update at the end of a tick that planned a pack; a tag that is
configured twice has two iterations. -/
def updateStreaks
    (opts : AggregatorOptions)
    (input : AggregatorTickInput)
    (includedTags firedByTrigger : List Bytes32)
    (state : AggregatorState) : AggregatorState :=
  opts.tags.foldl
    (fun current tag =>
      Function.update current tag
        (updateStreak input includedTags firedByTrigger tag
          (current tag)))
    state

/-- The plan of a tick and the selections beyond `maxTagsPerPack`. -/
def planEntries
    (opts : AggregatorOptions)
    (entries : List Enriched) : PackPlan × List PerTagSelection :=
  let sortedByAge := sortSelections (entries.map Enriched.selection)
  let cap := max 1 opts.maxTagsPerPack
  (planPack (sortedByAge.take cap) opts.capacity, sortedByAge.drop cap)

/-- `createAggregator(opts).tick`. -/
def aggregatorTick
    (opts : AggregatorOptions)
    (state : AggregatorState)
    (input : AggregatorTickInput) :
    Except AggregatorError (AggregatorState × Option PackResult) :=
  match collect (triggerOf opts input) opts.tags with
  | .error error => .error (.encode error)
  | .ok fired =>
      let observed := observePending opts input state
      if fired = [] then
        .ok (observed, none)
      else
        let firedByTrigger :=
          fired.map fun entry => entry.selection.contentTag
        match collect (passengerOf opts input firedByTrigger)
            opts.tags with
        | .error error => .error (.encode error)
        | .ok passengers =>
            let entries := fired ++ passengers
            let (plan, cappedExcluded) := planEntries opts entries
            match pruneSelections entries plan.included with
            | .error error => .error error
            | .ok included =>
                .ok
                  (updateStreaks opts input
                      (plan.included.map PackPlanIncluded.contentTag)
                      firedByTrigger observed,
                    some {
                      plan := plan
                      includedSelections := included
                      excludedTags :=
                        plan.excluded.map PackPlanExcluded.contentTag ++
                          cappedExcluded.map
                            PerTagSelection.contentTag })

/-- A tick without anything to submit: `AggregatorLoop.tick` is `'idle'`. -/
def nothingToSubmit (pack : Option PackResult) : Bool :=
  match pack with
  | none => true
  | some pack => pack.plan.included.isEmpty

/-- What a loop over the tags collects. -/
theorem mem_collect
    {iteration : Bytes32 → Except BatchError (Option Enriched)}
    {tags : List Bytes32}
    {entries : List Enriched}
    (collected : collect iteration tags = .ok entries)
    {entry : Enriched} :
    entry ∈ entries ↔
      ∃ tag ∈ tags, iteration tag = .ok (some entry) := by
  induction tags generalizing entries with
  | nil =>
      cases collected
      simp
  | cons tag rest inductionHypothesis =>
      rw [collect] at collected
      cases step : iteration tag with
      | error error =>
          rw [step] at collected
          cases collected
      | ok result =>
          cases result with
          | none =>
              rw [step] at collected
              simp [inductionHypothesis collected, step]
          | some enriched =>
              rw [step] at collected
              cases later : collect iteration rest with
              | error error =>
                  rw [later] at collected
                  cases collected
              | ok others =>
                  rw [later] at collected
                  cases collected
                  simp [inductionHypothesis later, step, eq_comm]

/-- A loop whose iterations all succeed succeeds. -/
theorem collect_succeeds
    {iteration : Bytes32 → Except BatchError (Option Enriched)}
    {tags : List Bytes32}
    (succeed : ∀ tag ∈ tags, ∃ result, iteration tag = .ok result) :
    ∃ entries, collect iteration tags = .ok entries := by
  induction tags with
  | nil =>
      exact ⟨[], rfl⟩
  | cons tag rest inductionHypothesis =>
      rw [List.forall_mem_cons] at succeed
      obtain ⟨⟨result, step⟩, restSucceed⟩ := succeed
      obtain ⟨later, collected⟩ := inductionHypothesis restSucceed
      rw [collect, step]
      cases result with
      | none =>
          exact ⟨later, collected⟩
      | some enriched =>
          exact ⟨enriched :: later, by rw [collected]⟩

/-- Messages that encode are enriched. -/
theorem enrich_succeeds
    {opts : AggregatorOptions}
    {messages : List DecodedMessage}
    {data : Bytes}
    (input : AggregatorTickInput)
    (tag : Bytes32)
    (encoded :
      opts.encode (messages.map DecodedMessage.toBAMMessage)
        (messages.map DecodedMessage.signature) = .ok data) :
    ∃ entry, enrich opts input tag messages = .ok entry := by
  rw [enrich, encoded]
  exact ⟨_, rfl⟩

/-- What a successful `enrich` built. -/
theorem enrich_ok
    {opts : AggregatorOptions}
    {input : AggregatorTickInput}
    {tag : Bytes32}
    {messages : List DecodedMessage}
    {entry : Enriched}
    (enriched : enrich opts input tag messages = .ok entry) :
    ∃ data,
      opts.encode (messages.map DecodedMessage.toBAMMessage)
        (messages.map DecodedMessage.signature) = .ok data ∧
      entry.selection.contentTag = tag ∧
      entry.selection.payloadBytes = data ∧
      entry.selection.oldestIngestedAt = oldestIngestedAt input tag ∧
      entry.batch = {
        contentTag := tag
        messages := messages
        payloadBytes := data } := by
  unfold enrich at enriched
  split at enriched
  · cases enriched
  · rename_i data encoded
    cases enriched
    exact ⟨data, encoded, rfl, rfl, rfl, rfl⟩

/-- An iteration that selects something enriched what the policy picked. -/
theorem enrichPicked_some
    {opts : AggregatorOptions}
    {input : AggregatorTickInput}
    {tag : Bytes32}
    {picked : Option (List DecodedMessage)}
    {entry : Enriched}
    (step : enrichPicked opts input tag picked = .ok (some entry)) :
    ∃ messages,
      picked = some messages ∧ messages ≠ [] ∧
      input.pool tag ≠ [] ∧
      enrich opts input tag messages = .ok entry := by
  unfold enrichPicked at step
  split at step
  · cases step
  rename_i poolNonempty
  split at step
  · cases step
  rename_i messages
  split at step
  · cases step
  rename_i nonempty
  split at step
  · cases step
  rename_i enriched isEnriched
  cases step
  exact ⟨messages, rfl, nonempty, poolNonempty, isEnriched⟩

/-- An iteration enriches a nonempty pick of a nonempty pool. -/
theorem enrichPicked_enriches
    {opts : AggregatorOptions}
    {input : AggregatorTickInput}
    {tag : Bytes32}
    {messages : List DecodedMessage}
    {entry : Enriched}
    (pending : input.pool tag ≠ [])
    (nonempty : messages ≠ [])
    (enriched : enrich opts input tag messages = .ok entry) :
    enrichPicked opts input tag (some messages) = .ok (some entry) := by
  unfold enrichPicked
  rw [if_neg pending]
  dsimp only
  rw [if_neg nonempty, enriched]

/-- An entry of a tick is the enriched pick of its own tag. -/
theorem entry_facts
    {opts : AggregatorOptions}
    {input : AggregatorTickInput}
    {fired passengers : List Enriched}
    (firedCollected :
      collect (triggerOf opts input) opts.tags = .ok fired)
    (passengersCollected :
      collect
        (passengerOf opts input
          (fired.map fun entry => entry.selection.contentTag))
        opts.tags = .ok passengers)
    {entry : Enriched}
    (member : entry ∈ fired ++ passengers) :
    ∃ tag ∈ opts.tags,
      ∃ messages,
        (opts.policy.select tag input.pool opts.blobCapacityBytes
            input.now = some messages ∨
          opts.policy.fill tag input.pool opts.blobCapacityBytes =
            some messages) ∧
        messages ≠ [] ∧
        input.pool tag ≠ [] ∧
        enrich opts input tag messages = .ok entry := by
  rcases List.mem_append.mp member with inFired | inPassengers
  · obtain ⟨tag, tagMember, step⟩ :=
      (mem_collect firedCollected).mp inFired
    obtain ⟨messages, picked, facts⟩ := enrichPicked_some step
    exact ⟨tag, tagMember, messages, .inl picked, facts⟩
  · obtain ⟨tag, tagMember, step⟩ :=
      (mem_collect passengersCollected).mp inPassengers
    unfold passengerOf at step
    split at step
    · cases step
    · obtain ⟨messages, picked, facts⟩ := enrichPicked_some step
      exact ⟨tag, tagMember, messages, .inr picked, facts⟩

/-- Entries found under a tag. -/
theorem enrichedGet_some
    {entries : List Enriched}
    {tag : Bytes32}
    {batch : AggregatorBatchSelection}
    (found : enrichedGet entries tag = some batch) :
    ∃ entry ∈ entries, entry.batch = batch ∧ batch.contentTag = tag := by
  obtain ⟨entry, isFound, rfl⟩ := Option.map_eq_some_iff.mp found
  refine ⟨entry,
    List.mem_reverse.mp (List.mem_of_find?_eq_some isFound), rfl, ?_⟩
  simpa using List.find?_some isFound

/-- Every tag with an entry is found. -/
theorem enrichedGet_of_mem
    {entries : List Enriched}
    {entry : Enriched}
    (member : entry ∈ entries) :
    ∃ batch,
      enrichedGet entries entry.batch.contentTag = some batch := by
  cases found : enrichedGet entries entry.batch.contentTag with
  | some batch =>
      exact ⟨batch, rfl⟩
  | none =>
      rw [enrichedGet, Option.map_eq_none_iff, List.find?_eq_none] at found
      have absent := found entry (List.mem_reverse.mpr member)
      simp at absent

/-- Pruning finds the entry of each planned segment. -/
theorem pruneSelections_ok
    {entries : List Enriched}
    {segments : List PackPlanIncluded}
    {batches : List AggregatorBatchSelection}
    (pruned : pruneSelections entries segments = .ok batches) :
    List.Forall₂
      (fun segment batch =>
        enrichedGet entries segment.contentTag = some batch)
      segments batches := by
  induction segments generalizing batches with
  | nil =>
      cases pruned
      exact .nil
  | cons segment rest inductionHypothesis =>
      rw [pruneSelections] at pruned
      split at pruned
      · cases pruned
      rename_i batch found
      split at pruned
      · cases pruned
      rename_i later prunedRest
      cases pruned
      exact .cons found (inductionHypothesis prunedRest)

/-- Pruning succeeds when every planned tag has an entry. -/
theorem pruneSelections_succeeds
    {entries : List Enriched}
    {segments : List PackPlanIncluded}
    (present :
      ∀ segment ∈ segments,
        ∃ batch,
          enrichedGet entries segment.contentTag = some batch) :
    ∃ batches, pruneSelections entries segments = .ok batches := by
  induction segments with
  | nil =>
      exact ⟨[], rfl⟩
  | cons segment rest inductionHypothesis =>
      rw [List.forall_mem_cons] at present
      obtain ⟨⟨batch, found⟩, restPresent⟩ := present
      obtain ⟨later, pruned⟩ := inductionHypothesis restPresent
      exact ⟨batch :: later, by rw [pruneSelections, found, pruned]⟩

/-- A tick that plans a pack, step by step. -/
structure Planned
    (opts : AggregatorOptions)
    (input : AggregatorTickInput)
    (pack : PackResult)
    (fired passengers : List Enriched) : Prop where
  firedCollected :
    collect (triggerOf opts input) opts.tags = .ok fired
  someFired : fired ≠ []
  passengersCollected :
    collect
      (passengerOf opts input
        (fired.map fun entry => entry.selection.contentTag))
      opts.tags = .ok passengers
  isPlan : pack.plan = (planEntries opts (fired ++ passengers)).1
  mirrored :
    List.Forall₂
      (fun segment batch =>
        enrichedGet (fired ++ passengers) segment.contentTag =
          some batch)
      pack.plan.included pack.includedSelections

/-- What a tick that returns a pack did. -/
theorem aggregatorTick_some
    {opts : AggregatorOptions}
    {state next : AggregatorState}
    {input : AggregatorTickInput}
    {pack : PackResult}
    (ticked : aggregatorTick opts state input = .ok (next, some pack)) :
    ∃ fired passengers, Planned opts input pack fired passengers := by
  unfold aggregatorTick at ticked
  split at ticked
  · cases ticked
  rename_i fired firedCollected
  dsimp only at ticked
  split at ticked
  · cases ticked
  rename_i someFired
  split at ticked
  · cases ticked
  rename_i passengers passengersCollected
  split at ticked
  · cases ticked
  rename_i included pruned
  cases ticked
  exact ⟨fired, passengers,
    { firedCollected
      someFired
      passengersCollected
      isPlan := rfl
      mirrored := pruneSelections_ok pruned }⟩

/-- A tick without a pack is one on which nothing fired. -/
theorem aggregatorTick_none
    {opts : AggregatorOptions}
    {state next : AggregatorState}
    {input : AggregatorTickInput}
    (ticked : aggregatorTick opts state input = .ok (next, none)) :
    ∃ fired,
      collect (triggerOf opts input) opts.tags = .ok fired ∧
        fired = [] := by
  unfold aggregatorTick at ticked
  split at ticked
  · cases ticked
  rename_i fired firedCollected
  dsimp only at ticked
  split at ticked
  · rename_i noneFired
    exact ⟨fired, firedCollected, noneFired⟩
  split at ticked
  · cases ticked
  split at ticked
  · cases ticked
  · cases ticked

/-- A selection the planner sees is the selection of an entry. -/
theorem mem_of_mem_take_sorted
    {entries : List Enriched}
    {cap : Nat}
    {selection : PerTagSelection}
    (member :
      selection ∈
        (sortSelections (entries.map Enriched.selection)).take cap) :
    ∃ entry ∈ entries, entry.selection = selection := by
  have sorted := List.mem_of_mem_take member
  rw [mem_sortSelections, List.mem_map] at sorted
  exact sorted

/-- A planned segment carries the payload of one of the tick's entries. -/
theorem planEntries_included
    {opts : AggregatorOptions}
    {entries : List Enriched}
    {segment : PackPlanIncluded}
    (included : segment ∈ (planEntries opts entries).1.included) :
    (∃ entry ∈ entries,
        entry.selection.contentTag = segment.contentTag ∧
        entry.selection.payloadBytes = segment.payloadBytes) ∧
      0 < feCountForPayload segment.payloadBytes.length ∧
      segment.endFE =
        segment.startFE +
          feCountForPayload segment.payloadBytes.length ∧
      segment.endFE ≤ opts.capacity.maxFEs ∧
      segment.payloadBytes.length ≤ opts.capacity.maxBytes := by
  obtain ⟨⟨selection, member, sameTag, samePayload⟩, positive, tight,
    inFEs, inBytes⟩ := packLoop_included included
  rw [mem_sortSelections] at member
  obtain ⟨entry, entryMember, rfl⟩ := mem_of_mem_take_sorted member
  exact ⟨⟨entry, entryMember, sameTag, samePayload⟩, positive, tight,
    inFEs, by omega⟩

/-- The encoder fixes an entry's payload, so entries of one tag with one pick
agree. -/
theorem enrich_payload
    {opts : AggregatorOptions}
    {input : AggregatorTickInput}
    {tag : Bytes32}
    {messages : List DecodedMessage}
    {entry : Enriched}
    (enriched : enrich opts input tag messages = .ok entry) :
    entry.batch.contentTag = entry.selection.contentTag ∧
      entry.batch.payloadBytes = entry.selection.payloadBytes := by
  obtain ⟨data, -, sameTag, samePayload, -, isBatch⟩ := enrich_ok enriched
  rw [isBatch, sameTag, samePayload]
  exact ⟨rfl, rfl⟩

/-- A tick does not throw when every pick of the policy encodes. -/
theorem aggregatorTick_succeeds
    {opts : AggregatorOptions}
    (state : AggregatorState)
    {input : AggregatorTickInput}
    (encodes :
      ∀ tag ∈ opts.tags, ∀ messages,
        (opts.policy.select tag input.pool opts.blobCapacityBytes
            input.now = some messages ∨
          opts.policy.fill tag input.pool opts.blobCapacityBytes =
            some messages) →
        ∃ entry, enrich opts input tag messages = .ok entry) :
    ∃ next pack, aggregatorTick opts state input = .ok (next, pack) := by
  have iterates :
      ∀ tag ∈ opts.tags, ∀ picked,
        (∀ messages, picked = some messages →
          ∃ entry, enrich opts input tag messages = .ok entry) →
        ∃ result, enrichPicked opts input tag picked = .ok result := by
    intro tag _ picked enriches
    unfold enrichPicked
    split
    · exact ⟨none, rfl⟩
    cases picked with
    | none =>
        exact ⟨none, rfl⟩
    | some messages =>
        obtain ⟨entry, enriched⟩ := enriches messages rfl
        dsimp only
        split
        · exact ⟨none, rfl⟩
        · exact ⟨some entry, by rw [enriched]⟩
  obtain ⟨fired, firedCollected⟩ :=
    @collect_succeeds (triggerOf opts input) opts.tags
      fun tag member =>
        iterates tag member _ fun messages picked =>
          encodes tag member messages (.inl picked)
  unfold aggregatorTick
  rw [firedCollected]
  dsimp only
  by_cases noneFired : fired = []
  · rw [if_pos noneFired]
    exact ⟨_, _, rfl⟩
  rw [if_neg noneFired]
  obtain ⟨passengers, passengersCollected⟩ :=
    @collect_succeeds
      (passengerOf opts input
        (fired.map fun entry => entry.selection.contentTag))
      opts.tags (by
        intro tag member
        unfold passengerOf
        split
        · exact ⟨none, rfl⟩
        · exact iterates tag member _ fun messages picked =>
            encodes tag member messages (.inr picked))
  rw [passengersCollected]
  dsimp only
  obtain ⟨included, pruned⟩ :=
    @pruneSelections_succeeds (fired ++ passengers)
      (planEntries opts (fired ++ passengers)).1.included
      (by
        intro segment member
        obtain ⟨⟨entry, entryMember, sameTag, -⟩, -⟩ :=
          planEntries_included member
        obtain ⟨tag, -, messages, -, -, -, enriched⟩ :=
          entry_facts firedCollected passengersCollected entryMember
        rw [← sameTag, ← (enrich_payload enriched).1]
        exact enrichedGet_of_mem entryMember)
  rw [pruned]
  exact ⟨_, _, rfl⟩

end Bam
