import Bam.Poster.SelfCheck
import Bam.System.References
import Bam.System.Slots

namespace Bam

/-!
# Broadcasts and the ticks behind them

What a step of the Poster, or of the Reader's watcher beside it, does to the
broadcasts, to the ticks that wait to broadcast, and to the marks.
-/

/-- The slots of the messages a pack submits. -/
def PackResult.keys (pack : PackResult) : List MessageKey :=
  (submittedEntries pack).flatMap fun entry =>
    entry.messages.map DecodedMessage.key

/-- One broadcast at two moments. -/
structure Broadcast.SameSend
    (before after : Broadcast) : Prop where
  txHash : after.txHash = before.txHash
  pack : after.pack = before.pack
  earlier : after.earlier = before.earlier
  markedBefore : after.markedBefore = before.markedBefore

theorem Broadcast.SameSend.rfl
    {broadcast : Broadcast} :
    broadcast.SameSend broadcast :=
  ⟨Eq.refl _, Eq.refl _, Eq.refl _, Eq.refl _⟩

/-- The confirm transaction of the broadcast has committed. -/
def Broadcast.Recorded (broadcast : Broadcast) : Prop :=
  ∃ receipt, broadcast.phase = .recorded receipt

theorem mem_recorded
    {world : World}
    {txHash : Bytes32} :
    txHash ∈ world.recorded ↔
      ∃ broadcast ∈ world.broadcasts.rows,
        broadcast.Recorded ∧ broadcast.txHash = txHash := by
  rw [World.recorded, List.mem_map]
  constructor
  · rintro ⟨broadcast, selected, rfl⟩
    obtain ⟨member, isRecorded⟩ := Table.mem_select.mp selected
    refine ⟨broadcast, member, ?_, rfl⟩
    split at isRecorded
    · rename_i receipt isPhase
      exact ⟨receipt, isPhase⟩
    · cases isRecorded
  · rintro ⟨broadcast, member, ⟨receipt, isPhase⟩, rfl⟩
    refine ⟨broadcast, Table.mem_select.mpr ⟨member, ?_⟩, rfl⟩
    rw [isPhase]

/-- Only the confirm transaction records a broadcast. -/
theorem not_leads_recorded
    {before : BroadcastPhase}
    {receipt : TransactionReceipt} :
    ¬ before.Leads (.recorded receipt) := by
  intro leads
  cases leads

/-- A recorded broadcast is final. -/
theorem not_recorded_leads
    {after : BroadcastPhase}
    {receipt : TransactionReceipt} :
    ¬ (BroadcastPhase.recorded receipt).Leads after := by
  intro leads
  cases leads

/-- The messages of a planned pack are those of pending rows of their tag when
the tick read its pools. -/
theorem row_of_planned
    {config : SystemConfig}
    {store : Store}
    {pool : PoolView}
    {state after : AggregatorState}
    {now : Int}
    {pack : PackResult}
    (read : snapshotPools store config.aggregator.tags = .ok pool)
    (ticked :
      aggregatorTick config.aggregator state { pool, now } =
        .ok (after, some pack))
    {entry : PackedSubmitIncludedEntry}
    (isEntry : entry ∈ submittedEntries pack)
    {message : DecodedMessage}
    (isMessage : message ∈ entry.messages) :
    ∃ row ∈ store.messages.rows,
      row.contentTag = entry.contentTag ∧
      row.status = .pending ∧
      message.key = row.key ∧
      message.contents = row.contents ∧
      message.signature = row.signature ∧
      message.messageHash = row.messageHash := by
  obtain ⟨fired, passengers, planned⟩ := aggregatorTick_some ticked
  obtain ⟨segment, included, rfl⟩ := List.mem_map.mp isEntry
  obtain ⟨batch, selected, isGot⟩ :=
    selection?_of_mirrored planned.mirrored included
  rw [PackResult.selection?, selected] at isMessage
  obtain ⟨enriched, ofTick, rfl, ofSegment⟩ := enrichedGet_some isGot
  obtain ⟨tag, -, messages, picked, -, -, isEnriched⟩ :=
    entry_facts planned.firedCollected planned.passengersCollected ofTick
  obtain ⟨data, -, -, -, -, isBatch⟩ := enrich_ok isEnriched
  obtain ⟨count, isPrefix⟩ := picked_prefix picked
  rw [isBatch] at isMessage ofSegment
  have inPool : message ∈ pool tag := by
    apply List.mem_of_mem_take
    rw [← isPrefix]
    exact isMessage
  obtain ⟨-, row, inTable, ofTag, pending, sameKey, -, sameContents,
      sameSignature, sameHash, -⟩ :=
    mem_snapshotPools read inPool
  exact ⟨row, inTable, ofTag.trans ofSegment, pending, sameKey,
    sameContents, sameSignature, sameHash⟩

/-- The messages of a planned pack were pending when the tick read its
pools. -/
theorem pending_of_planned
    {config : SystemConfig}
    {store : Store}
    {pool : PoolView}
    {state after : AggregatorState}
    {now : Int}
    {pack : PackResult}
    (read : snapshotPools store config.aggregator.tags = .ok pool)
    (ticked :
      aggregatorTick config.aggregator state { pool, now } =
        .ok (after, some pack))
    {key : MessageKey}
    (member : key ∈ pack.keys) :
    ∃ row,
      store.message? key = some row ∧ row.status = .pending := by
  obtain ⟨entry, isEntry, ofEntry⟩ := List.mem_flatMap.mp member
  obtain ⟨message, isMessage, rfl⟩ := List.mem_map.mp ofEntry
  obtain ⟨row, inTable, -, pending, sameKey, -⟩ :=
    row_of_planned read ticked isEntry isMessage
  refine ⟨row, ?_, pending⟩
  rw [sameKey]
  exact Table.mem_rows_iff.mp inTable

/-- Where a broadcast of the next state comes from. -/
inductive BroadcastChange
    (config : SystemConfig)
    (world next : World) : SharedEvent → Broadcast → Prop where
  | kept
      {event : SharedEvent}
      {before after : Broadcast}
      (member : before ∈ world.broadcasts.rows)
      (same : before.SameSend after)
      (recorded : after.Recorded → before.Recorded) :
      BroadcastChange config world next event after
  | confirmed
      {broadcast : Broadcast}
      {receipt : TransactionReceipt}
      {submittedAt : Int}
      (member : broadcast ∈ world.broadcasts.rows)
      (included : broadcast.phase = .included receipt)
      (committed :
        confirmIncluded config.keccak256 config.loop world.store
          (World.outcomeOf config broadcast receipt) submittedAt =
            .ok next.store) :
      BroadcastChange config world next
        (.poster (.tickConfirm broadcast.txHash submittedAt))
        { broadcast with phase := .recorded receipt }
  | sent
      {index : Nat}
      {result : SendResult}
      {tick : PendingTick}
      {txHash : Bytes32}
      {phase : BroadcastPhase}
      (found : world.ticks[index]? = some tick)
      (isSent : result.txHash? = some txHash)
      (fresh : world.broadcasts.get? txHash = none)
      (unconfirmed : phase = .awaiting ∨ phase = .abandoned) :
      BroadcastChange config world next (.poster (.tickSend index result))
        (world.broadcastOf tick txHash phase)

section Steps

variable {config : SystemConfig}
variable {world next : World}
variable {event : SharedEvent}

theorem broadcastChange_sharedStep
    (taken : sharedStep config world event = some next)
    {after : Broadcast}
    (member : after ∈ next.broadcasts.rows) :
    BroadcastChange config world next event after := by
  cases event with
  | readerWatch action =>
      obtain ⟨outcome, -, rfl⟩ := readerWatchStep_cases taken
      exact .kept member .rfl id
  | poster event =>
      cases posterStep_cases taken with
      | quiet same broadcasts =>
          rw [broadcasts] at member
          exact .kept member .rfl id
      | ingested raw withinRateLimit now =>
          exact .kept member .rfl id
      | prepared read ticked nonempty same broadcasts =>
          rw [broadcasts] at member
          exact .kept member .rfl id
      | sent found isSent fresh unconfirmed same broadcasts =>
          rw [broadcasts] at member
          rcases Table.mem_put.mp member with rfl | ⟨member, -⟩
          · exact .sent found isSent fresh unconfirmed
          · exact .kept member .rfl id
      | phased found leads arrived same broadcasts =>
          rw [broadcasts] at member
          rcases Table.mem_put.mp member with rfl | ⟨member, -⟩
          · refine .kept (Table.mem_of_get? found)
              ⟨rfl, rfl, rfl, rfl⟩ ?_
            rintro ⟨receipt, isPhase⟩
            dsimp only at isPhase
            subst isPhase
            exact absurd leads not_leads_recorded
          · exact .kept member .rfl id
      | confirmed found included committed =>
          rcases Table.mem_put.mp member with rfl | ⟨member, -⟩
          · exact .confirmed (Table.mem_of_get? found) included committed
          · exact .kept member .rfl id
      | restarted =>
          obtain ⟨old, isOld, rfl⟩ := mem_broadcasts_restart.mp member
          split
          · refine .kept isOld ⟨rfl, rfl, rfl, rfl⟩ ?_
            rintro ⟨receipt, isPhase⟩
            cases isPhase
          · exact .kept isOld .rfl id
      | watched stepped =>
          exact .kept member .rfl id
      | chained canonical =>
          exact .kept member .rfl id

/-- Broadcasts are kept, and recorded ones stay recorded. -/
theorem broadcastKept_sharedStep
    (taken : sharedStep config world event = some next)
    {before : Broadcast}
    (member : before ∈ world.broadcasts.rows) :
    ∃ after ∈ next.broadcasts.rows,
      before.SameSend after ∧ (before.Recorded → after.Recorded) := by
  have replaced :
      ∀ {found after : Broadcast},
        world.broadcasts.get? found.txHash = some found →
        found.SameSend after →
        (found.Recorded → after.Recorded) →
        ∃ other ∈ (world.broadcasts.put after).rows,
          before.SameSend other ∧ (before.Recorded → other.Recorded) := by
    intro found after isFound same recorded
    by_cases sameHash : before.txHash = found.txHash
    · have isBefore : before = found :=
        Table.eq_of_key_eq member (Table.mem_of_get? isFound) sameHash
      subst isBefore
      exact ⟨after, Table.mem_put.mpr (.inl rfl), same, recorded⟩
    · refine ⟨before, Table.mem_put.mpr (.inr ⟨member, ?_⟩), .rfl, id⟩
      rw [same.txHash]
      exact sameHash
  cases event with
  | readerWatch action =>
      obtain ⟨outcome, -, rfl⟩ := readerWatchStep_cases taken
      exact ⟨before, member, .rfl, id⟩
  | poster event =>
      cases posterStep_cases taken with
      | quiet same broadcasts =>
          exact ⟨before, broadcasts ▸ member, .rfl, id⟩
      | ingested raw withinRateLimit now =>
          exact ⟨before, member, .rfl, id⟩
      | prepared read ticked nonempty same broadcasts =>
          exact ⟨before, broadcasts ▸ member, .rfl, id⟩
      | sent found isSent fresh unconfirmed same broadcasts =>
          rw [broadcasts]
          refine ⟨before, Table.mem_put.mpr (.inr ⟨member, ?_⟩), .rfl,
            id⟩
          intro sameHash
          have isFound := Table.mem_rows_iff.mp member
          rw [sameHash] at isFound
          cases fresh.symm.trans isFound
      | phased found leads arrived same broadcasts =>
          rw [broadcasts]
          refine replaced found ⟨rfl, rfl, rfl, rfl⟩ ?_
          rintro ⟨receipt, isPhase⟩
          rw [isPhase] at leads
          exact absurd leads not_recorded_leads
      | confirmed found included committed =>
          exact replaced found ⟨rfl, rfl, rfl, rfl⟩
            fun _ => ⟨_, rfl⟩
      | restarted =>
          refine ⟨_, mem_broadcasts_restart.mpr ⟨before, member, rfl⟩,
            ?_, ?_⟩
          · split
            · exact ⟨rfl, rfl, rfl, rfl⟩
            · exact .rfl
          · rintro ⟨receipt, isPhase⟩
            refine ⟨receipt, ?_⟩
            rw [World.inFlight, isPhase]
            exact isPhase
      | watched stepped =>
          exact ⟨before, member, .rfl, id⟩
      | chained canonical =>
          exact ⟨before, member, .rfl, id⟩

/-- Recorded transactions stay recorded. -/
theorem recorded_sharedStep
    (taken : sharedStep config world event = some next)
    {txHash : Bytes32}
    (recorded : txHash ∈ world.recorded) :
    txHash ∈ next.recorded := by
  obtain ⟨broadcast, member, isRecorded, rfl⟩ := mem_recorded.mp recorded
  obtain ⟨after, isAfter, same, stays⟩ :=
    broadcastKept_sharedStep taken member
  exact mem_recorded.mpr ⟨after, isAfter, stays isRecorded, same.txHash⟩

/-- A tick that waits was there before, or it has just read its pools. -/
theorem ticks_sharedStep
    (taken : sharedStep config world event = some next)
    {tick : PendingTick}
    (member : tick ∈ next.ticks) :
    tick ∈ world.ticks ∨
      tick.recordedBefore = world.recorded ∧
        next.marks = world.marks ∧
        (∃ now, event = .poster (.tickStart now)) ∧
        ∀ key ∈ tick.pack.keys,
          ∃ row,
            world.store.message? key = some row ∧
              row.status = .pending := by
  cases event with
  | readerWatch action =>
      obtain ⟨outcome, -, rfl⟩ := readerWatchStep_cases taken
      exact .inl member
  | poster event =>
      cases posterStep_cases taken with
      | quiet same broadcasts ticks =>
          exact .inl (ticks tick member)
      | ingested raw withinRateLimit now =>
          exact .inl member
      | prepared read ticked nonempty same broadcasts ticks =>
          rw [ticks] at member
          rcases List.mem_append.mp member with old | isNew
          · exact .inl old
          · rw [List.mem_singleton] at isNew
            subst isNew
            exact .inr ⟨rfl, same.marks, ⟨_, rfl⟩,
              fun key ofPack => pending_of_planned read ticked ofPack⟩
      | sent found isSent fresh unconfirmed same broadcasts ticks =>
          exact .inl (ticks tick member)
      | phased found leads arrived same broadcasts ticks =>
          exact .inl (ticks ▸ member)
      | confirmed found included committed =>
          exact .inl member
      | restarted =>
          cases member
      | watched stepped =>
          exact .inl member
      | chained canonical =>
          exact .inl member

/-- A broadcast of the next state was there before, or it is being sent. -/
theorem BroadcastChange.origin
    {after : Broadcast}
    (change : BroadcastChange config world next event after) :
    (∃ before ∈ world.broadcasts.rows, before.SameSend after) ∨
      ∃ index result tick txHash phase,
        event = .poster (.tickSend index result) ∧
        world.ticks[index]? = some tick ∧
        result.txHash? = some txHash ∧
        world.broadcasts.get? txHash = none ∧
        after = world.broadcastOf tick txHash phase := by
  cases change with
  | kept member same recorded =>
      exact .inl ⟨_, member, same⟩
  | confirmed member included committed =>
      exact .inl ⟨_, member, rfl, rfl, rfl, rfl⟩
  | sent found isSent fresh unconfirmed =>
      exact .inr ⟨_, _, _, _, _, rfl, found, isSent, fresh, rfl⟩

/-- A send that is taken broadcasts the pack of its tick. -/
theorem broadcast_of_tickSend
    {index : Nat}
    {result : SendResult}
    {tick : PendingTick}
    {txHash : Bytes32}
    (found : world.ticks[index]? = some tick)
    (isSent : result.txHash? = some txHash)
    (taken : world.tickSend index result = some next) :
    ∃ phase, world.broadcastOf tick txHash phase ∈
      next.broadcasts.rows := by
  rw [World.tickSend, found] at taken
  cases result with
  | accepted sentHash =>
      cases isSent
      obtain ⟨-, rfl⟩ := send_cases taken
      exact ⟨_, Table.mem_put.mpr (.inl rfl)⟩
  | lost sentHash error =>
      cases isSent
      obtain ⟨middle, isMiddle, rfl⟩ := Option.map_eq_some_iff.mp taken
      obtain ⟨-, rfl⟩ := send_cases isMiddle
      exact ⟨_, Table.mem_put.mpr (.inl rfl)⟩
  | refused error =>
      cases isSent

/-- A step leaves the marks alone, or it marks a transaction with a batch row,
and no message row is confirmed in it afterwards. -/
theorem marks_sharedStep
    (taken : sharedStep config world event = some next) :
    next.marks = world.marks ∨
      ∃ mark,
        next.marks = mark :: world.marks ∧
        (∃ batch ∈ world.store.batches.rows,
          batch.isOf config.chainId mark.txHash = true) ∧
        ∀ key row,
          next.store.message? key = some row →
          row.isConfirmedIn config.chainId mark.txHash = false := by
  cases event with
  | readerWatch action =>
      obtain ⟨outcome, stepped, rfl⟩ := readerWatchStep_cases taken
      rcases watchStep_store stepped with
        ⟨-, same⟩ | ⟨judgement, _, _, _, -, -, marked, marks⟩
      · exact .inl same
      · refine .inr ⟨_, marks, Store.batch_of_markReorged marked, ?_⟩
        intro key row found
        by_contra confirmed
        have inTx := Bool.of_not_eq_false confirmed
        exact confirmed
          (message?_of_confirmed_markReorged marked found
            (MessageRow.isConfirmedIn_iff.mp inTx).2.2).2
  | poster event =>
      cases posterStep_cases taken with
      | quiet same =>
          exact .inl same.marks
      | ingested raw withinRateLimit now =>
          exact .inl rfl
      | prepared read ticked nonempty same =>
          exact .inl same.marks
      | sent found isSent fresh unconfirmed same =>
          exact .inl same.marks
      | phased found leads arrived same =>
          exact .inl same.marks
      | confirmed found included committed =>
          exact .inl rfl
      | restarted =>
          exact .inl rfl
      | watched stepped =>
          rcases watchStep_store stepped with
            ⟨-, same⟩ | ⟨judgement, _, _, _, -, -, reorged, marks⟩
          · exact .inl same
          · obtain ⟨marked, isMarked, -⟩ := reorgBatch_ok reorged
            exact .inr ⟨_, marks, Store.batch_of_markReorged isMarked,
              fun key row found =>
                not_isConfirmedIn_reorgBatch reorged found⟩
      | chained canonical =>
          exact .inl rfl

/-- Marked transactions stay marked. -/
theorem marked_sharedStep
    (taken : sharedStep config world event = some next)
    {txHash : Bytes32}
    (marked : txHash ∈ world.marked) :
    txHash ∈ next.marked := by
  rw [World.marked] at marked ⊢
  rcases marks_sharedStep taken with same | ⟨mark, marks, -⟩
  · rw [same]
    exact marked
  · rw [marks, List.map_cons]
    exact List.mem_cons_of_mem _ marked

/-- A batch row was there before, or its transaction is recorded. -/
theorem batchRecorded_sharedStep
    (taken : sharedStep config world event = some next)
    {key : BatchKey}
    (found : next.store.batch? key ≠ none) :
    world.store.batch? key ≠ none ∨ key.2.1 ∈ next.recorded := by
  have ofMap :
      ∀ (store : Store) (change : BatchRow → BatchRow),
        store.batch? key = (world.store.batch? key).map change →
        store.batch? key ≠ none →
        world.store.batch? key ≠ none := by
    intro store change isMap isSome isNone
    rw [isMap, isNone] at isSome
    exact isSome rfl
  cases event with
  | readerWatch action =>
      obtain ⟨outcome, stepped, rfl⟩ := readerWatchStep_cases taken
      rcases watchStep_store stepped with
        ⟨same, -⟩ | ⟨_, _, _, _, -, -, marked, -⟩
      · exact .inl (same ▸ found)
      · exact .inl
          (ofMap _ _ (Store.batch?_markReorged marked key) found)
  | poster event =>
      cases posterStep_cases taken with
      | quiet same =>
          exact .inl (same.store ▸ found)
      | ingested raw withinRateLimit now =>
          rw [Store.batch?, batches_ingest] at found
          exact .inl found
      | prepared read ticked nonempty same =>
          exact .inl (same.store ▸ found)
      | sent isFound isSent fresh unconfirmed same =>
          exact .inl (same.store ▸ found)
      | phased isFound leads arrived same =>
          exact .inl (same.store ▸ found)
      | @confirmed broadcast receipt _ _ isFound included committed =>
          rcases batch?_confirmIncluded committed key with
            ⟨-, entry, -, rfl⟩ | same
          · exact .inr (mem_recorded.mpr
              ⟨_, Table.mem_put.mpr (.inl rfl), ⟨receipt, rfl⟩, rfl⟩)
          · refine .inl fun isNone => found ?_
            rw [isNone, Option.map_none, Option.map_eq_none_iff] at same
            exact same
      | restarted =>
          exact .inl found
      | watched stepped =>
          rcases watchStep_store stepped with
            ⟨same, -⟩ | ⟨_, _, _, _, -, -, reorged, -⟩
          · exact .inl (same ▸ found)
          · exact .inl (ofMap _ _ (batch?_reorgBatch reorged key) found)
      | chained canonical =>
          exact .inl found

/-- No step drops a message row. -/
theorem messageKept_sharedStep
    (taken : sharedStep config world event = some next)
    {key : MessageKey}
    (present : world.store.message? key ≠ none) :
    next.store.message? key ≠ none := by
  have isStep :
      systemStep config world (.shared event) = some next :=
    taken
  cases slotChange_systemStep isStep key with
  | same unchanged =>
      exact unchanged ▸ present
  | ingested admissible isAccepted after overReorged =>
      exact after ▸ Option.some_ne_none _
  | confirmed found included recorded ofPack ofEntry ofSlot before
      sameHash unconfirmed after =>
      exact after ▸ Option.some_ne_none _
  | marked isWatch before inTx isMarked after =>
      exact after ▸ Option.some_ne_none _
  | requeued isJudged before attached isMarked after =>
      exact after ▸ Option.some_ne_none _

end Steps

end Bam
