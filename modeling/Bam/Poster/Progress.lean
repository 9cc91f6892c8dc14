import Mathlib.Tactic.NormNum
import Bam.Poster.Aggregator
import Bam.Poster.Ingest

namespace Bam

/-!
# Progress of the aggregator under its default configuration

The policy fills a batch up to `DEFAULT_BLOB_CAPACITY_BYTES`, the planner
accepts a segment up to `USABLE_BYTES_PER_BLOB`, which is smaller.  A pool
with a FIFO prefix whose size lies between the two is picked by the policy and
then left out by the planner, on this tick and on every later one.
-/

/-- The aggregator as `createPoster` wires it without overrides. -/
def defaultAggregatorOptions
    (tags : List Bytes32)
    (maxTagsPerPack : Nat) : AggregatorOptions where
  policy := defaultBatchPolicy .empty
  tags := tags
  maxTagsPerPack := maxTagsPerPack
  capacityFEs := none
  capacityBytes := none
  blobCapacityBytes := DEFAULT_BLOB_CAPACITY_BYTES
  encodeBatch := none

/-- A pending message as ingest leaves it under the default bounds. -/
structure DecodedMessage.Ingested (message : DecodedMessage) : Prop where
  signature : message.signature.length = SIGNATURE_BYTES
  nonce : message.nonce ≤ MAX_NONCE
  contents : message.contents.length ≤ DEFAULT_MAX_CONTENTS_SIZE_BYTES
  stamped : message.ingestedAt.isSome

/-- The tag whose pool starts with the oldest pending message; between equally
old ones the smaller tag. -/
structure HoldsOldest
    (tags : List Bytes32)
    (input : AggregatorTickInput)
    (oldest : Bytes32) : Prop where
  member : oldest ∈ tags
  pending : input.pool oldest ≠ []
  first :
    ∀ tag ∈ tags, input.pool tag ≠ [] →
      oldestIngestedAt input oldest < oldestIngestedAt input tag ∨
        oldestIngestedAt input oldest = oldestIngestedAt input tag ∧
          oldest.toNat ≤ tag.toNat

/-- Some FIFO prefix of the pool fits the policy's blob capacity and exceeds
the planner's. -/
def OverfullPrefix (pool : List DecodedMessage) : Prop :=
  ∃ count ≤ pool.length,
    defaultPackCapacity.maxBytes <
        estimateBatchSize
          ((pool.take count).map DecodedMessage.toBAMMessage) ∧
      estimateBatchSize
          ((pool.take count).map DecodedMessage.toBAMMessage) ≤
        DEFAULT_BLOB_CAPACITY_BYTES

/-- Some tag's policy fires. -/
def Fires
    (opts : AggregatorOptions)
    (input : AggregatorTickInput) : Prop :=
  ∃ tag ∈ opts.tags, ∃ picked,
    opts.policy.select tag input.pool opts.blobCapacityBytes input.now =
      some picked

/-- The tick returns a plan with a segment of the given tag. -/
def PlansTag
    (opts : AggregatorOptions)
    (state : AggregatorState)
    (input : AggregatorTickInput)
    (tag : Bytes32) : Prop :=
  ∃ next pack,
    aggregatorTick opts state input = .ok (next, some pack) ∧
      pack.plan.included ≠ [] ∧
      ∃ segment ∈ pack.plan.included, segment.contentTag = tag

/-- The tick leaves `AggregatorLoop.tick` with nothing to submit. -/
def Idle
    (opts : AggregatorOptions)
    (state : AggregatorState)
    (input : AggregatorTickInput) : Prop :=
  ∃ next pack,
    aggregatorTick opts state input = .ok (next, pack) ∧
      nothingToSubmit pack = true

/-- What the default policy picks from a pool, for a trigger or a passenger. -/
def defaultFill (pool : List DecodedMessage) : List DecodedMessage :=
  greedyFifoFill DEFAULT_BLOB_CAPACITY_BYTES estimateBatchSize [] pool

/-- The default fill is the longest prefix that fits. -/
theorem defaultFill_prefix
    (pool : List DecodedMessage) :
    ∃ count ≤ pool.length,
      defaultFill pool = pool.take count ∧
      (0 < count →
        estimateBatchSize
            ((pool.take count).map DecodedMessage.toBAMMessage) ≤
          DEFAULT_BLOB_CAPACITY_BYTES) ∧
      (count < pool.length →
        DEFAULT_BLOB_CAPACITY_BYTES <
          estimateBatchSize
            ((pool.take (count + 1)).map
              DecodedMessage.toBAMMessage)) := by
  obtain ⟨count, isFill, le, fits, stops⟩ :=
    greedyFifoFill_prefix DEFAULT_BLOB_CAPACITY_BYTES
      estimateBatchSize [] pool
  rw [List.nil_append] at isFill
  exact ⟨count, le, isFill,
    fun positive => by simpa using fits count positive (Nat.le_refl _),
    fun more => by simpa using stops more⟩

/-- Longer prefixes have larger estimates. -/
theorem estimateBatchSize_take_mono
    (pool : List DecodedMessage)
    {shorter longer : Nat}
    (le : shorter ≤ longer) :
    estimateBatchSize
        ((pool.take shorter).map DecodedMessage.toBAMMessage) ≤
      estimateBatchSize
        ((pool.take longer).map DecodedMessage.toBAMMessage) := by
  obtain ⟨extra, rfl⟩ := Nat.exists_eq_add_of_le le
  rw [List.take_add, List.map_append]
  have split := estimateBatchSize_append
    ((pool.take shorter).map DecodedMessage.toBAMMessage)
    (((pool.drop shorter).take extra).map DecodedMessage.toBAMMessage)
  have header := header_le_estimateBatchSize
    (((pool.drop shorter).take extra).map DecodedMessage.toBAMMessage)
  omega

/-- A pool of ingested messages is never too big to start a batch. -/
theorem defaultFill_ne_nil
    {pool : List DecodedMessage}
    (ingested : ∀ message ∈ pool, message.Ingested)
    (pending : pool ≠ []) :
    defaultFill pool ≠ [] := by
  obtain ⟨count, le, isFill, -, stops⟩ := defaultFill_prefix pool
  obtain ⟨first, rest, rfl⟩ := List.exists_cons_of_ne_nil pending
  have bounded := (ingested first List.mem_cons_self).contents
  rw [isFill]
  intro isEmpty
  cases count with
  | succ count =>
      simp at isEmpty
  | zero =>
      have exceeds :
          DEFAULT_BLOB_CAPACITY_BYTES <
            estimateBatchSize [first.toBAMMessage] :=
        stops (Nat.zero_lt_succ _)
      have capacity : DEFAULT_BLOB_CAPACITY_BYTES = 129024 := rfl
      have bound : DEFAULT_MAX_CONTENTS_SIZE_BYTES = 121728 := rfl
      have single :
          estimateBatchSize [first.toBAMMessage] =
            10 + (97 + first.contents.length) :=
        rfl
      omega

theorem mem_pool_of_mem_defaultFill
    {pool : List DecodedMessage}
    {message : DecodedMessage}
    (picked : message ∈ defaultFill pool) :
    message ∈ pool := by
  obtain ⟨count, -, isFill, -⟩ := defaultFill_prefix pool
  rw [isFill] at picked
  exact List.mem_of_mem_take picked

/-- The fill exceeds the planner's capacity exactly on an overfull prefix. -/
theorem overfullPrefix_iff
    {pool : List DecodedMessage}
    (filled : defaultFill pool ≠ []) :
    OverfullPrefix pool ↔
      defaultPackCapacity.maxBytes <
        estimateBatchSize
          ((defaultFill pool).map DecodedMessage.toBAMMessage) := by
  obtain ⟨count, le, isFill, fits, stops⟩ := defaultFill_prefix pool
  have positive : 0 < count := by
    rcases Nat.eq_zero_or_pos count with isZero | positive
    · rw [isFill, isZero, List.take_zero] at filled
      exact absurd rfl filled
    · exact positive
  rw [isFill]
  constructor
  · rintro ⟨other, -, exceeds, within⟩
    rcases Nat.lt_or_ge count other with shorter | longer
    · have more : count < pool.length ∨ pool.length ≤ count := by omega
      rcases more with more | whole
      · have next := stops more
        have mono := estimateBatchSize_take_mono pool
          (show count + 1 ≤ other from shorter)
        omega
      · rw [List.take_of_length_le whole]
        rwa [List.take_of_length_le (by omega)] at exceeds
    · exact Nat.lt_of_lt_of_le exceeds
        (estimateBatchSize_take_mono pool longer)
  · intro exceeds
    exact ⟨count, le, exceeds, fits positive⟩

section Defaults

variable {tags : List Bytes32} {maxTagsPerPack : Nat}
variable {input : AggregatorTickInput}

theorem encode_defaultAggregatorOptions :
    (defaultAggregatorOptions tags maxTagsPerPack).encode =
      encodeBatchData :=
  rfl

/-- Both ways of the default policy pick the fill of the pool. -/
theorem picked_eq_defaultFill
    {tag : Bytes32}
    {messages : List DecodedMessage}
    (picked :
      (defaultAggregatorOptions tags maxTagsPerPack).policy.select tag
          input.pool DEFAULT_BLOB_CAPACITY_BYTES input.now =
            some messages ∨
        (defaultAggregatorOptions tags maxTagsPerPack).policy.fill tag
          input.pool DEFAULT_BLOB_CAPACITY_BYTES = some messages) :
    messages = defaultFill (input.pool tag) := by
  rcases picked with selected | filled
  · exact (select_defaultBatchPolicy selected).2
  · simp only [defaultAggregatorOptions, fill_defaultBatchPolicy] at filled
    split at filled
    · cases filled
    · rename_i first others isFill
      rw [← Option.some.inj filled]
      exact isFill.symm

/-- Messages the codec can write are enriched. -/
theorem enrich_encodable
    {opts : AggregatorOptions}
    (encodes : opts.encode = encodeBatchData)
    {messages : List DecodedMessage}
    (few : messages.length ≤ MAX_UINT32)
    (encodable :
      ∀ message ∈ messages,
        Encodable message.toBAMMessage message.signature)
    (input : AggregatorTickInput)
    (tag : Bytes32) :
    ∃ entry, enrich opts input tag messages = .ok entry := by
  have written :
      ∀ record ∈
        (messages.map DecodedMessage.toBAMMessage).zip
          (messages.map DecodedMessage.signature),
        Encodable record.1 record.2 := by
    intro record isRecord
    rw [List.zip_map'] at isRecord
    obtain ⟨message, picked, rfl⟩ := List.mem_map.mp isRecord
    exact encodable message picked
  obtain ⟨encoded, succeeded⟩ :=
    encodeBatch_succeeds (by simp) (by simpa using few) written
  apply @enrich_succeeds _ _ encoded.data
  rw [encodes, encodeBatchData, succeeded]

/-- The fill of an ingested pool encodes to its estimated size. -/
theorem enrich_defaultFill
    (ingested : ∀ tag ∈ tags, ∀ message ∈ input.pool tag,
      message.Ingested)
    {tag : Bytes32}
    (member : tag ∈ tags) :
    ∃ entry,
      enrich (defaultAggregatorOptions tags maxTagsPerPack) input tag
        (defaultFill (input.pool tag)) = .ok entry := by
  have encodable :
      ∀ message ∈ defaultFill (input.pool tag),
        Encodable message.toBAMMessage message.signature := by
    intro message picked
    have bounds :=
      ingested tag member message (mem_pool_of_mem_defaultFill picked)
    have small := bounds.contents
    refine ⟨bounds.signature, bounds.nonce, Nat.le_trans small ?_⟩
    decide
  have few : (defaultFill (input.pool tag)).length ≤ MAX_UINT32 := by
    obtain ⟨count, -, isFill, fits, -⟩ :=
      defaultFill_prefix (input.pool tag)
    rcases Nat.eq_zero_or_pos count with isZero | positive
    · rw [isFill, isZero]
      exact Nat.zero_le _
    · have bound := fits positive
      rw [← isFill] at bound
      have counted := length_le_estimateBatchSize
        ((defaultFill (input.pool tag)).map DecodedMessage.toBAMMessage)
      rw [List.length_map] at counted
      exact Nat.le_trans counted (Nat.le_trans bound (by decide))
  exact enrich_encodable encode_defaultAggregatorOptions few encodable
    input tag

/-- An entry of a default tick: its tag, its age and its size. -/
theorem default_entry
    {fired passengers : List Enriched}
    (firedCollected :
      collect
        (triggerOf (defaultAggregatorOptions tags maxTagsPerPack) input)
        tags = .ok fired)
    (passengersCollected :
      collect
        (passengerOf (defaultAggregatorOptions tags maxTagsPerPack) input
          (fired.map fun entry => entry.selection.contentTag))
        tags = .ok passengers)
    {entry : Enriched}
    (member : entry ∈ fired ++ passengers) :
    entry.selection.contentTag ∈ tags ∧
      input.pool entry.selection.contentTag ≠ [] ∧
      entry.selection.oldestIngestedAt =
        oldestIngestedAt input entry.selection.contentTag ∧
      entry.selection.payloadBytes.length =
        estimateBatchSize
          ((defaultFill (input.pool entry.selection.contentTag)).map
            DecodedMessage.toBAMMessage) := by
  obtain ⟨tag, tagMember, messages, picked, -, pending, enriched⟩ :=
    entry_facts firedCollected passengersCollected member
  have isFill := picked_eq_defaultFill picked
  obtain ⟨data, encoded, sameTag, samePayload, age, -⟩ :=
    enrich_ok enriched
  rw [sameTag, samePayload, ← isFill]
  refine ⟨tagMember, pending, age, ?_⟩
  rw [encode_defaultAggregatorOptions, encodeBatchData] at encoded
  split at encoded
  · cases encoded
  · rename_i batch succeeded
    rw [← Except.ok.inj encoded]
    exact length_encodeBatch succeeded

/-- The tag with the oldest pending message has an entry in every tick that
fires. -/
theorem oldest_has_entry
    (ingested : ∀ tag ∈ tags, ∀ message ∈ input.pool tag,
      message.Ingested)
    {oldest : Bytes32}
    (member : oldest ∈ tags)
    (pending : input.pool oldest ≠ [])
    {fired passengers : List Enriched}
    (passengersCollected :
      collect
        (passengerOf (defaultAggregatorOptions tags maxTagsPerPack) input
          (fired.map fun entry => entry.selection.contentTag))
        tags = .ok passengers) :
    ∃ entry ∈ fired ++ passengers,
      entry.selection.contentTag = oldest := by
  by_cases triggered :
      oldest ∈ fired.map fun entry => entry.selection.contentTag
  · obtain ⟨entry, inFired, sameTag⟩ := List.mem_map.mp triggered
    exact ⟨entry, List.mem_append_left _ inFired, sameTag⟩
  · have filled :=
      defaultFill_ne_nil (ingested oldest member) pending
    obtain ⟨entry, enriched⟩ :=
      @enrich_defaultFill tags maxTagsPerPack input ingested oldest
        member
    obtain ⟨data, -, sameTag, -⟩ := enrich_ok enriched
    have step :
        passengerOf (defaultAggregatorOptions tags maxTagsPerPack) input
          (fired.map fun entry => entry.selection.contentTag) oldest =
            .ok (some entry) := by
      have fills :
          (defaultAggregatorOptions tags maxTagsPerPack).policy.fill
              oldest input.pool DEFAULT_BLOB_CAPACITY_BYTES =
            some (defaultFill (input.pool oldest)) := by
        obtain ⟨first, others, isFill⟩ :=
          List.exists_cons_of_ne_nil filled
        rw [isFill]
        simp only [defaultAggregatorOptions, fill_defaultBatchPolicy]
        simp only [defaultFill] at isFill
        simp only [DefaultBatchPolicyConfig.empty, Option.getD_none,
          isFill]
      have capacity :
          (defaultAggregatorOptions tags
            maxTagsPerPack).blobCapacityBytes =
              DEFAULT_BLOB_CAPACITY_BYTES := rfl
      rw [passengerOf, if_neg triggered, capacity, fills]
      exact enrichPicked_enriches pending filled enriched
    exact ⟨entry,
      List.mem_append_right _
        ((mem_collect passengersCollected).mpr ⟨oldest, member, step⟩),
      sameTag⟩

/-- The planner's first candidate is for the oldest tag. -/
theorem planEntries_oldest
    {oldest : Bytes32}
    (holdsOldest : HoldsOldest tags input oldest)
    {entries : List Enriched}
    (facts :
      ∀ entry ∈ entries,
        entry.selection.contentTag ∈ tags ∧
        input.pool entry.selection.contentTag ≠ [] ∧
        entry.selection.oldestIngestedAt =
          oldestIngestedAt input entry.selection.contentTag ∧
        entry.selection.payloadBytes.length =
          estimateBatchSize
            ((defaultFill
              (input.pool entry.selection.contentTag)).map
                DecodedMessage.toBAMMessage))
    (present :
      ∃ entry ∈ entries, entry.selection.contentTag = oldest)
    (fits :
      estimateBatchSize
          ((defaultFill (input.pool oldest)).map
            DecodedMessage.toBAMMessage) ≤
        defaultPackCapacity.maxBytes) :
    ∃ segment ∈
        (planEntries (defaultAggregatorOptions tags maxTagsPerPack)
          entries).1.included,
      segment.contentTag = oldest := by
  obtain ⟨oldestEntry, oldestMember, oldestTag⟩ := present
  have beforeAll :
      ∀ entry ∈ entries,
        oldestEntry.selection.comesBefore entry.selection := by
    intro entry member
    obtain ⟨inTags, nonempty, age, -⟩ := facts entry member
    obtain ⟨-, -, oldestAge, -⟩ := facts oldestEntry oldestMember
    unfold PerTagSelection.comesBefore
    rw [age, oldestAge, oldestTag]
    exact holdsOldest.first _ inTags nonempty
  cases sorted : sortSelections (entries.map Enriched.selection) with
  | nil =>
      have empty : oldestEntry.selection ∈ ([] : List PerTagSelection) := by
        rw [← sorted, mem_sortSelections]
        exact List.mem_map_of_mem oldestMember
      cases empty
  | cons first rest =>
      obtain ⟨firstMember, firstBefore⟩ := head_sortSelections sorted
      obtain ⟨firstEntry, firstEntryMember, rfl⟩ :=
        List.mem_map.mp firstMember
      have firstTag : firstEntry.selection.contentTag = oldest := by
        rw [← oldestTag]
        exact PerTagSelection.comesBefore_antisymm
          (firstBefore _ (List.mem_map_of_mem oldestMember))
          (beforeAll _ firstEntryMember)
      have plan :
          (planEntries (defaultAggregatorOptions tags maxTagsPerPack)
              entries).1 =
            planPack
              (firstEntry.selection ::
                rest.take (max 1 maxTagsPerPack - 1))
              defaultPackCapacity := by
        simp only [planEntries, defaultAggregatorOptions, sorted,
          AggregatorOptions.capacity, Option.getD_none]
        obtain ⟨extra, isCap⟩ :=
          Nat.exists_eq_add_of_le (Nat.le_max_left 1 maxTagsPerPack)
        rw [isCap, Nat.add_comm, List.take_succ_cons,
          Nat.add_sub_cancel]
      cases planned :
          sortSelections
            (firstEntry.selection ::
              rest.take (max 1 maxTagsPerPack - 1)) with
      | nil =>
          have empty :
              firstEntry.selection ∈ ([] : List PerTagSelection) := by
            rw [← planned, mem_sortSelections]
            exact List.mem_cons_self
          cases empty
      | cons head others =>
          obtain ⟨headMember, headBefore⟩ := head_sortSelections planned
          have headOfAll :
              head ∈ entries.map Enriched.selection := by
            rw [← mem_sortSelections, sorted]
            rcases List.mem_cons.mp headMember with isFirst | later
            · exact isFirst ▸ List.mem_cons_self
            · exact List.mem_cons_of_mem _ (List.mem_of_mem_take later)
          obtain ⟨headEntry, headEntryMember, rfl⟩ :=
            List.mem_map.mp headOfAll
          have headTag : headEntry.selection.contentTag = oldest := by
            rw [← firstTag]
            exact PerTagSelection.comesBefore_antisymm
              (headBefore _ List.mem_cons_self)
              (firstBefore _ headOfAll)
          obtain ⟨-, -, -, size⟩ := facts headEntry headEntryMember
          rw [headTag] at size
          have header := header_le_estimateBatchSize
            ((defaultFill (input.pool oldest)).map
              DecodedMessage.toBAMMessage)
          have maxBytes : defaultPackCapacity.maxBytes = 126976 := rfl
          have maxFEs : defaultPackCapacity.maxFEs = 4096 := rfl
          have headerSize : HEADER_SIZE = 10 := rfl
          obtain ⟨segment, included, sameTag⟩ :=
            @packLoop_first defaultPackCapacity headEntry.selection
              others
              (feCountForPayload_pos.mpr (by omega))
              (by
                rw [feCountForPayload]
                omega)
              (by omega)
          rw [plan, planPack, planned]
          exact ⟨segment, included, sameTag.trans headTag⟩

/-- The default policy fires on an ingested pool that is old enough. -/
theorem select_fires_of_old
    {tag : Bytes32}
    (ingested : ∀ message ∈ input.pool tag, message.Ingested)
    (pending : input.pool tag ≠ [])
    (old : oldestIngestedAt input tag + 60000 ≤ input.now) :
    ∃ picked,
      (defaultAggregatorOptions tags maxTagsPerPack).policy.select tag
        input.pool
        (defaultAggregatorOptions tags maxTagsPerPack).blobCapacityBytes
        input.now = some picked := by
  have filled := defaultFill_ne_nil ingested pending
  obtain ⟨count, -, isFill, -, -⟩ := defaultFill_prefix (input.pool tag)
  cases isPool : input.pool tag with
  | nil =>
      exact absurd isPool pending
  | cons first rest =>
      obtain ⟨pickedFirst, others, isPicked⟩ :=
        List.exists_cons_of_ne_nil filled
      have sameFirst : pickedFirst = first := by
        rw [isFill, isPool] at isPicked
        cases count with
        | zero =>
            cases isPicked
        | succ count =>
            rw [List.take_succ_cons] at isPicked
            exact (List.cons.inj isPicked).1.symm
      have stamp :=
        (ingested first (isPool ▸ List.mem_cons_self)).stamped
      obtain ⟨ingestedAt, isStamp⟩ := Option.isSome_iff_exists.mp stamp
      have oldEnough : 60000 ≤ input.now - ingestedAt := by
        rw [oldestIngestedAt, isPool] at old
        simp only [List.head?_cons, Option.bind_some, isStamp,
          Option.getD_some] at old
        omega
      rw [defaultFill] at isPicked
      simp only [defaultAggregatorOptions, defaultBatchPolicy,
        DefaultBatchPolicyConfig.empty, Option.getD_none, isPicked,
        sameFirst, isStamp, Option.any_some, oldEnough, decide_true,
        if_true]
      split
      · exact ⟨_, rfl⟩
      split
      · exact ⟨_, rfl⟩
      · exact ⟨_, rfl⟩

/-- The default policy fires on a fill of three quarters of the capacity. -/
theorem select_fires_of_full
    {tag : Bytes32}
    (filled : defaultFill (input.pool tag) ≠ [])
    (full :
      96768 ≤
        estimateBatchSize
          ((defaultFill (input.pool tag)).map
            DecodedMessage.toBAMMessage)) :
    ∃ picked,
      (defaultAggregatorOptions tags maxTagsPerPack).policy.select tag
        input.pool
        (defaultAggregatorOptions tags maxTagsPerPack).blobCapacityBytes
        input.now = some picked := by
  obtain ⟨first, others, isPicked⟩ := List.exists_cons_of_ne_nil filled
  have threshold :
      ((DEFAULT_BLOB_CAPACITY_BYTES : Nat) : Rat) * (3 / 4) =
        ((96768 : Nat) : Rat) := by
    rw [DEFAULT_BLOB_CAPACITY_BYTES]
    norm_num
  have large :
      ((DEFAULT_BLOB_CAPACITY_BYTES : Nat) : Rat) * (3 / 4) ≤
        ((estimateBatchSize
          ((first :: others).map
            DecodedMessage.toBAMMessage) : Nat) : Rat) := by
    rw [threshold, ← isPicked]
    exact Nat.cast_le.mpr full
  rw [defaultFill] at isPicked
  simp only [defaultAggregatorOptions, defaultBatchPolicy,
    DefaultBatchPolicyConfig.empty, Option.getD_none, isPicked, large,
    if_true]
  split
  · exact ⟨_, rfl⟩
  · exact ⟨_, rfl⟩

/-- A tick on which some policy fires returns a pack. -/
theorem tick_ne_none_of_fires
    (ingested : ∀ tag ∈ tags, ∀ message ∈ input.pool tag,
      message.Ingested)
    (fires :
      Fires (defaultAggregatorOptions tags maxTagsPerPack) input)
    {state next : AggregatorState} :
    aggregatorTick (defaultAggregatorOptions tags maxTagsPerPack)
      state input ≠ .ok (next, none) := by
  intro ticked
  obtain ⟨tag, member, picked, selected⟩ := fires
  have isFill := picked_eq_defaultFill (.inl selected)
  have nonempty := (select_defaultBatchPolicy selected).1
  have pending : input.pool tag ≠ [] := by
    intro empty
    rw [isFill, empty] at nonempty
    exact nonempty rfl
  obtain ⟨entry, enriched⟩ :=
    @enrich_defaultFill tags maxTagsPerPack input ingested tag member
  rw [← isFill] at enriched
  have step :
      triggerOf (defaultAggregatorOptions tags maxTagsPerPack)
        input tag = .ok (some entry) := by
    rw [triggerOf, selected]
    exact enrichPicked_enriches pending nonempty enriched
  obtain ⟨fired, firedCollected, isNil⟩ := aggregatorTick_none ticked
  have inFired := (mem_collect firedCollected).mpr ⟨tag, member, step⟩
  rw [isNil] at inFired
  cases inFired

/-- A default tick over ingested pools does not throw. -/
theorem default_tick_succeeds
    (ingested : ∀ tag ∈ tags, ∀ message ∈ input.pool tag,
      message.Ingested)
    (state : AggregatorState) :
    ∃ next pack,
      aggregatorTick (defaultAggregatorOptions tags maxTagsPerPack)
        state input = .ok (next, pack) := by
  apply aggregatorTick_succeeds
  intro tag member messages picked
  rw [picked_eq_defaultFill picked]
  exact enrich_defaultFill ingested member

/-- The fill of a planned tag fits the planner's capacity. -/
theorem planned_fill_fits
    {state next : AggregatorState}
    {pack : PackResult}
    (ticked :
      aggregatorTick (defaultAggregatorOptions tags maxTagsPerPack)
        state input = .ok (next, some pack))
    {segment : PackPlanIncluded}
    (included : segment ∈ pack.plan.included) :
    segment.contentTag ∈ tags ∧
      input.pool segment.contentTag ≠ [] ∧
      estimateBatchSize
          ((defaultFill (input.pool segment.contentTag)).map
            DecodedMessage.toBAMMessage) ≤
        defaultPackCapacity.maxBytes := by
  obtain ⟨fired, passengers, planned⟩ := aggregatorTick_some ticked
  rw [planned.isPlan] at included
  obtain ⟨⟨entry, member, sameTag, samePayload⟩, -, -, -, fits⟩ :=
    planEntries_included included
  obtain ⟨inTags, pending, -, size⟩ :=
    default_entry planned.firedCollected planned.passengersCollected
      member
  rw [sameTag] at inTags pending size
  rw [samePayload] at size
  exact ⟨inTags, pending, size ▸ fits⟩

/-- A tick that fires plans the oldest tag when its fill fits the planner. -/
theorem plansTag_of_fill_fits
    (ingested : ∀ tag ∈ tags, ∀ message ∈ input.pool tag,
      message.Ingested)
    {oldest : Bytes32}
    (holdsOldest : HoldsOldest tags input oldest)
    (fires :
      Fires (defaultAggregatorOptions tags maxTagsPerPack) input)
    (fits :
      estimateBatchSize
          ((defaultFill (input.pool oldest)).map
            DecodedMessage.toBAMMessage) ≤
        defaultPackCapacity.maxBytes)
    (state : AggregatorState) :
    PlansTag (defaultAggregatorOptions tags maxTagsPerPack)
      state input oldest := by
  obtain ⟨next, pack, ticked⟩ :=
    @default_tick_succeeds tags maxTagsPerPack input ingested state
  cases pack with
  | none =>
      exact absurd ticked (tick_ne_none_of_fires ingested fires)
  | some pack =>
      obtain ⟨fired, passengers, planned⟩ := aggregatorTick_some ticked
      obtain ⟨segment, included, sameTag⟩ :=
        @planEntries_oldest tags maxTagsPerPack input oldest holdsOldest _
          (fun entry member =>
            default_entry planned.firedCollected
              planned.passengersCollected member)
          (oldest_has_entry ingested holdsOldest.member
            holdsOldest.pending planned.passengersCollected)
          fits
      rw [← planned.isPlan] at included
      exact ⟨next, pack, ticked, List.ne_nil_of_mem included,
        segment, included, sameTag⟩

/-- The age of an ingested pool does not depend on the clock. -/
theorem oldestIngestedAt_later
    (ingested : ∀ tag ∈ tags, ∀ message ∈ input.pool tag,
      message.Ingested)
    {tag : Bytes32}
    (member : tag ∈ tags)
    (pending : input.pool tag ≠ [])
    (later : Int) :
    oldestIngestedAt { input with now := later } tag =
      oldestIngestedAt input tag := by
  obtain ⟨first, rest, isPool⟩ := List.exists_cons_of_ne_nil pending
  have stamp :=
    (ingested tag member first (isPool ▸ List.mem_cons_self)).stamped
  obtain ⟨ingestedAt, isStamp⟩ := Option.isSome_iff_exists.mp stamp
  simp [oldestIngestedAt, isPool, isStamp]

/-- Which tag is oldest does not depend on the clock. -/
theorem HoldsOldest.later
    (ingested : ∀ tag ∈ tags, ∀ message ∈ input.pool tag,
      message.Ingested)
    {oldest : Bytes32}
    (holdsOldest : HoldsOldest tags input oldest)
    (later : Int) :
    HoldsOldest tags { input with now := later } oldest where
  member := holdsOldest.member
  pending := holdsOldest.pending
  first := by
    intro tag member pending
    rw [oldestIngestedAt_later ingested member pending,
      oldestIngestedAt_later ingested holdsOldest.member
        holdsOldest.pending]
    exact holdsOldest.first tag member pending

/--
When some policy fires, the tick plans the tag with the oldest pending message,
and so does every late enough tick over the same backlog, exactly if no FIFO
prefix of that tag's pool fits the policy's capacity but not the planner's.
-/
theorem plans_oldest_iff_no_overfullPrefix
    (ingested : ∀ tag ∈ tags, ∀ message ∈ input.pool tag,
      message.Ingested)
    {oldest : Bytes32}
    (holdsOldest : HoldsOldest tags input oldest)
    (fires :
      Fires (defaultAggregatorOptions tags maxTagsPerPack) input)
    (state : AggregatorState) :
    (PlansTag (defaultAggregatorOptions tags maxTagsPerPack)
        state input oldest ∧
      ∃ deadline, ∀ later ≥ deadline, ∀ laterState,
        PlansTag (defaultAggregatorOptions tags maxTagsPerPack)
          laterState { input with now := later } oldest) ↔
      ¬ OverfullPrefix (input.pool oldest) := by
  have filled :=
    defaultFill_ne_nil (ingested oldest holdsOldest.member)
      holdsOldest.pending
  rw [overfullPrefix_iff filled, Nat.not_lt]
  constructor
  · rintro ⟨⟨next, pack, ticked, -, segment, included, rfl⟩, -⟩
    exact (planned_fill_fits ticked included).2.2
  · intro fits
    refine ⟨plansTag_of_fill_fits ingested holdsOldest fires fits state,
      oldestIngestedAt input oldest + 60000, ?_⟩
    intro later late laterState
    have age := oldestIngestedAt_later ingested holdsOldest.member
      holdsOldest.pending later
    have firesLater :
        Fires (defaultAggregatorOptions tags maxTagsPerPack)
          { input with now := later } := by
      refine ⟨oldest, holdsOldest.member, ?_⟩
      apply @select_fires_of_old tags maxTagsPerPack
        { input with now := later } oldest
        (ingested oldest holdsOldest.member) holdsOldest.pending
      rw [age]
      exact late
    exact @plansTag_of_fill_fits tags maxTagsPerPack
      { input with now := later } ingested oldest
      (holdsOldest.later ingested later) firesLater fits laterState

/-- A backlog of one tag whose fill exceeds the planner's capacity leaves
every tick idle. -/
theorem idle_of_overfull_single
    {tag : Bytes32}
    (ingested : ∀ message ∈ input.pool tag, message.Ingested)
    (exceeds :
      defaultPackCapacity.maxBytes <
        estimateBatchSize
          ((defaultFill (input.pool tag)).map
            DecodedMessage.toBAMMessage))
    (state : AggregatorState) :
    Idle (defaultAggregatorOptions [tag] maxTagsPerPack) state input ∧
      ¬ PlansTag (defaultAggregatorOptions [tag] maxTagsPerPack)
          state input tag := by
  have unplanned :
      ∀ {next : AggregatorState} {pack : PackResult},
        aggregatorTick (defaultAggregatorOptions [tag] maxTagsPerPack)
            state input = .ok (next, some pack) →
          pack.plan.included = [] := by
    intro next pack ticked
    apply List.eq_nil_iff_forall_not_mem.mpr
    intro segment included
    obtain ⟨isTag, -, fits⟩ := planned_fill_fits ticked included
    rw [List.mem_singleton.mp isTag] at fits
    exact absurd exceeds (Nat.not_lt.mpr fits)
  constructor
  · obtain ⟨next, pack, ticked⟩ :=
      @default_tick_succeeds [tag] maxTagsPerPack input
        (by simpa using ingested) state
    refine ⟨next, pack, ticked, ?_⟩
    cases pack with
    | none =>
        rfl
    | some pack =>
        simp [nothingToSubmit, unplanned ticked]
  · rintro ⟨next, pack, ticked, nonempty, -⟩
    exact nonempty (unplanned ticked)

end Defaults

/-- The one tag of the backlogs below. -/
def backlogTag : Bytes32 := 0x7a

/-- A pending message with a body of a given size. -/
def bulkMessage
    (nonce size : Nat) : DecodedMessage where
  sender := 0x5e
  nonce := nonce
  contents := List.replicate size 0x61
  contentTag := backlogTag
  signature := List.replicate 65 0x01
  messageHash := BitVec.ofNat 256 nonce
  ingestedAt := some 0

/-- The pools of one tag. -/
def backlogOf
    (pending : List DecodedMessage)
    (now : Int) : AggregatorTickInput where
  pool := fun tag => if tag = backlogTag then pending else []
  now := now

theorem bulkMessage_ingested
    {nonce size : Nat}
    (inRange : nonce ≤ MAX_NONCE)
    (small : size ≤ DEFAULT_MAX_CONTENTS_SIZE_BYTES) :
    (bulkMessage nonce size).Ingested where
  signature := List.length_replicate
  nonce := inRange
  contents := by
    simp only [bulkMessage, List.length_replicate]
    exact small
  stamped := rfl

theorem estimateBatchSize_bulkMessage
    (nonce size : Nat)
    (rest : List BAMMessage) :
    estimateBatchSize ((bulkMessage nonce size).toBAMMessage :: rest) =
      estimateBatchSize rest + (RECORD_FIXED_OVERHEAD + size) := by
  rw [estimateBatchSize, DecodedMessage.toBAMMessage, bulkMessage,
    List.length_replicate]

@[simp] theorem pool_backlogOf
    (pending : List DecodedMessage)
    (now : Int) :
    (backlogOf pending now).pool backlogTag = pending :=
  rfl

theorem holdsOldest_backlogOf
    {pending : List DecodedMessage}
    (nonempty : pending ≠ [])
    (now : Int) :
    HoldsOldest [backlogTag] (backlogOf pending now) backlogTag where
  member := List.mem_singleton_self _
  pending := nonempty
  first := by
    intro tag member _
    rw [List.mem_singleton.mp member]
    exact .inr ⟨rfl, Nat.le_refl _⟩

/-- One small message that has waited for the age trigger is planned. -/
theorem plans_oldest_one_message :
    PlansTag (defaultAggregatorOptions [backlogTag] 8)
        (fun _ => ⟨0, none, 0⟩)
        (backlogOf [bulkMessage 0 5] 60000) backlogTag ∧
      ∃ deadline, ∀ later ≥ deadline, ∀ laterState,
        PlansTag (defaultAggregatorOptions [backlogTag] 8) laterState
          { backlogOf [bulkMessage 0 5] 60000 with now := later }
          backlogTag := by
  have ingested :
      ∀ message ∈ [bulkMessage 0 5], message.Ingested := by
    simpa using
      bulkMessage_ingested (Nat.zero_le _)
        (show 5 ≤ DEFAULT_MAX_CONTENTS_SIZE_BYTES by decide)
  refine (plans_oldest_iff_no_overfullPrefix
    (by simpa using ingested)
    (holdsOldest_backlogOf (by simp) 60000) ?_ _).mpr ?_
  · exact ⟨backlogTag, List.mem_singleton_self _,
      @select_fires_of_old [backlogTag] 8 _ _
        (by simpa using ingested) (by simp) (by decide)⟩
  · rintro ⟨count, le, exceeds, -⟩
    have whole := estimateBatchSize_take_mono [bulkMessage 0 5]
      (show count ≤ 1 from le)
    have size :
        estimateBatchSize
            (([bulkMessage 0 5].take 1).map
              DecodedMessage.toBAMMessage) = 112 := by
      decide
    have maxBytes : defaultPackCapacity.maxBytes = 126976 := rfl
    simp only [pool_backlogOf] at exceeds
    omega

/-- Two messages within the ingest bounds whose batch has 127000 bytes. -/
def overfullPool : List DecodedMessage :=
  [bulkMessage 0 121000, bulkMessage 1 5796]

theorem overfullPool_ingested :
    ∀ message ∈ overfullPool, message.Ingested := by
  intro message member
  rcases List.mem_pair.mp member with rfl | rfl
  · exact bulkMessage_ingested (by decide) (by decide)
  · exact bulkMessage_ingested (by decide) (by decide)

theorem defaultFill_overfullPool :
    defaultFill overfullPool = overfullPool ∧
      estimateBatchSize
          (overfullPool.map DecodedMessage.toBAMMessage) = 127000 := by
  have firstSize :
      estimateBatchSize [(bulkMessage 0 121000).toBAMMessage] =
        121107 := by
    rw [estimateBatchSize_bulkMessage]
    rfl
  have bothSize :
      estimateBatchSize
          [(bulkMessage 0 121000).toBAMMessage,
            (bulkMessage 1 5796).toBAMMessage] = 127000 := by
    rw [estimateBatchSize_bulkMessage, estimateBatchSize_bulkMessage]
    rfl
  refine ⟨?_, bothSize⟩
  simp only [defaultFill, overfullPool, greedyFifoFill, List.nil_append,
    List.cons_append, List.map_cons, List.map_nil, firstSize, bothSize,
    DEFAULT_BLOB_CAPACITY_BYTES]
  rw [if_neg (by decide), if_neg (by decide)]

/-- The size trigger fires on the overfull pool at every clock value, and every
tick over it is idle. -/
theorem overfullPool_never_planned :
    (∀ message ∈ overfullPool, message.Ingested) ∧
      ∀ now,
        HoldsOldest [backlogTag] (backlogOf overfullPool now) backlogTag ∧
        Fires (defaultAggregatorOptions [backlogTag] 8)
          (backlogOf overfullPool now) ∧
        ∀ state,
          Idle (defaultAggregatorOptions [backlogTag] 8) state
              (backlogOf overfullPool now) ∧
            ¬ PlansTag (defaultAggregatorOptions [backlogTag] 8) state
                (backlogOf overfullPool now) backlogTag := by
  obtain ⟨isFill, size⟩ := defaultFill_overfullPool
  refine ⟨overfullPool_ingested, fun now => ⟨?_, ?_, ?_⟩⟩
  · exact holdsOldest_backlogOf (List.cons_ne_nil _ _) now
  · refine ⟨backlogTag, List.mem_singleton_self _, ?_⟩
    apply select_fires_of_full
    · rw [pool_backlogOf, isFill]
      exact List.cons_ne_nil _ _
    · rw [pool_backlogOf, isFill, size]
      decide
  · intro state
    apply idle_of_overfull_single
    · simpa using overfullPool_ingested
    · rw [pool_backlogOf, isFill, size]
      decide

end Bam
