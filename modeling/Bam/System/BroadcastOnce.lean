import Bam.System.Broadcasts
import Bam.System.Plans
import Bam.System.Receipts

namespace Bam

/-!
# Broadcasting a message once

A tick broadcasts what it read as pending, and only the confirm transaction
takes the messages out of the pending pools.  A message is broadcast again only
after its earlier transaction was marked reorged, exactly if every send comes
after the earlier broadcasts of its messages were recorded, before its tick
read the pools, or were marked.
-/

/-- No message is carried by two broadcasts, unless the earlier one was marked
before the later one was sent. -/
def World.BroadcastOnce (world : World) : Prop :=
  ∀ later ∈ world.broadcasts.rows,
    ∀ earlier ∈ world.broadcasts.rows,
      earlier.txHash ∈ later.earlier →
      ∀ key ∈ later.pack.keys,
        key ∈ earlier.pack.keys →
        earlier.txHash ∈ later.markedBefore

instance decidableBroadcastOnce
    (world : World) : Decidable world.BroadcastOnce :=
  inferInstanceAs (Decidable
    (∀ later ∈ world.broadcasts.rows,
      ∀ earlier ∈ world.broadcasts.rows,
        earlier.txHash ∈ later.earlier →
        ∀ key ∈ later.pack.keys,
          key ∈ earlier.pack.keys →
          earlier.txHash ∈ later.markedBefore))

/-- A send finds every broadcast that shares a message with it recorded before
its tick began, or marked. -/
def sendsAllow
    (world : World) : SharedEvent → Prop
  | .poster (.tickSend index result) =>
      ∀ tick,
        world.ticks[index]? = some tick →
        result.txHash? ≠ none →
        ∀ broadcast ∈ world.broadcasts.rows,
          ∀ key ∈ tick.pack.keys,
            key ∈ broadcast.pack.keys →
            broadcast.txHash ∈ tick.recordedBefore ∨
              broadcast.txHash ∈ world.marked
  | _ => True

/-- What every step keeps of broadcasts, batch rows, marks and message rows. -/
structure World.Ledger
    (config : SystemConfig)
    (world : World) : Prop extends world.Lawful config where
  ordered :
    ∀ broadcast ∈ world.broadcasts.rows,
      ∀ other ∈ world.broadcasts.rows,
        broadcast.txHash = other.txHash ∨
          broadcast.txHash ∈ other.earlier ∨
          other.txHash ∈ broadcast.earlier
  earlier :
    ∀ broadcast ∈ world.broadcasts.rows,
      ∀ txHash ∈ broadcast.earlier,
        world.broadcasts.get? txHash ≠ none
  markedBefore :
    ∀ broadcast ∈ world.broadcasts.rows,
      ∀ txHash ∈ broadcast.markedBefore, txHash ∈ world.marked
  slots :
    ∀ broadcast ∈ world.broadcasts.rows,
      ∀ key ∈ broadcast.pack.keys, world.store.message? key ≠ none
  batches :
    ∀ key, world.store.batch? key ≠ none → key.2.1 ∈ world.recorded
  marked : ∀ txHash ∈ world.marked, txHash ∈ world.recorded
  confirmedRows :
    ∀ key row,
      world.store.message? key = some row →
      row.status = .confirmed →
      ∃ broadcast ∈ world.broadcasts.rows,
        broadcast.Recorded ∧
          row.batchRef = some broadcast.txHash ∧
          key ∈ broadcast.pack.keys ∧
          broadcast.txHash ∉ world.marked
  tickSlots :
    ∀ tick ∈ world.ticks,
      ∀ key ∈ tick.pack.keys, world.store.message? key ≠ none
  tickKnown :
    ∀ tick ∈ world.ticks,
      ∀ txHash ∈ tick.recordedBefore, txHash ∈ world.recorded

/-- What steps between states without a double broadcast keep: a recorded
broadcast holds its messages until it is marked, also against waiting ticks. -/
structure World.Settled (world : World) : Prop where
  holds :
    ∀ broadcast ∈ world.broadcasts.rows,
      broadcast.Recorded →
      ∀ key ∈ broadcast.pack.keys,
        broadcast.txHash ∈ world.marked ∨
          ∃ row,
            world.store.message? key = some row ∧
              row.status = .confirmed ∧
              row.batchRef = some broadcast.txHash
  ticks :
    ∀ tick ∈ world.ticks,
      ∀ broadcast ∈ world.broadcasts.rows,
        broadcast.txHash ∈ tick.recordedBefore →
        ∀ key ∈ tick.pack.keys,
          key ∈ broadcast.pack.keys →
          broadcast.txHash ∈ world.marked

theorem ledger_initial
    (config : SystemConfig) :
    World.initial.Ledger config where
  toLawful := lawful_initial config
  ordered := by
    intro broadcast member
    cases member
  earlier := by
    intro broadcast member
    cases member
  markedBefore := by
    intro broadcast member
    cases member
  slots := by
    intro broadcast member
    cases member
  batches := by
    intro key found
    exact absurd rfl found
  marked := by
    intro txHash member
    cases member
  confirmedRows := by
    intro key row found
    cases found
  tickSlots := by
    intro tick member
    cases member
  tickKnown := by
    intro tick member
    cases member

theorem settled_initial : World.initial.Settled where
  holds := by
    intro broadcast member
    cases member
  ticks := by
    intro tick member
    cases member

section Steps

variable {config : SystemConfig}
variable {world next : World}
variable {event : SharedEvent}

/-- A recorded transaction has a broadcast. -/
theorem get?_of_recorded
    {txHash : Bytes32}
    (recorded : txHash ∈ world.recorded) :
    world.broadcasts.get? txHash ≠ none := by
  obtain ⟨broadcast, member, -, rfl⟩ := mem_recorded.mp recorded
  rw [Table.mem_rows_iff.mp member]
  exact Option.some_ne_none _

/-- A broadcast of a recorded transaction is recorded. -/
theorem recorded_of_mem
    {broadcast : Broadcast}
    (member : broadcast ∈ world.broadcasts.rows)
    (recorded : broadcast.txHash ∈ world.recorded) :
    broadcast.Recorded := by
  obtain ⟨other, isOther, isRecorded, sameHash⟩ :=
    mem_recorded.mp recorded
  rw [← Table.eq_of_key_eq isOther member sameHash]
  exact isRecorded

/-- Broadcast transactions stay known. -/
theorem get?_sharedStep
    (taken : sharedStep config world event = some next)
    {txHash : Bytes32}
    (known : world.broadcasts.get? txHash ≠ none) :
    next.broadcasts.get? txHash ≠ none := by
  obtain ⟨broadcast, found⟩ := Option.ne_none_iff_exists'.mp known
  obtain ⟨after, isAfter, same, -⟩ :=
    broadcastKept_sharedStep taken (Table.mem_of_get? found)
  have sameHash : after.txHash = txHash :=
    same.txHash.trans (Table.key_of_get? found)
  rw [← sameHash, Table.mem_rows_iff.mp isAfter]
  exact Option.some_ne_none _

/-- A confirmed row names an unmarked broadcast that carries its message. -/
theorem confirmedRows_sharedStep
    (ledger : world.Ledger config)
    (taken : sharedStep config world event = some next)
    (key : MessageKey)
    (row : MessageRow)
    (found : next.store.message? key = some row)
    (confirmed : row.status = .confirmed) :
    ∃ broadcast ∈ next.broadcasts.rows,
      broadcast.Recorded ∧
        row.batchRef = some broadcast.txHash ∧
        key ∈ broadcast.pack.keys ∧
        broadcast.txHash ∉ next.marked := by
  have isStep :
      systemStep config world (.shared event) = some next :=
    taken
  have ofChain :=
    ((lawful_systemStep ledger.toLawful isStep).rows key row found).1
  -- a mark of the row's transaction would have unconfirmed the row
  have unmarked :
      ∀ txHash,
        row.batchRef = some txHash →
        txHash ∉ world.marked →
        txHash ∉ next.marked := by
    intro txHash attached notMarked isMarked
    rw [World.marked] at notMarked isMarked
    rcases marks_sharedStep taken with
      same | ⟨mark, marks, -, unconfirmed⟩
    · rw [same] at isMarked
      exact notMarked isMarked
    · rw [marks, List.map_cons] at isMarked
      rcases List.mem_cons.mp isMarked with isMark | before
      · have inTx : row.isConfirmedIn config.chainId mark.txHash :=
          MessageRow.isConfirmedIn_iff.mpr
            ⟨isMark ▸ attached, ofChain, confirmed⟩
        rw [unconfirmed key row found] at inTx
        cases inTx
      · exact notMarked before
  cases slotChange_systemStep isStep key with
  | same unchanged =>
      obtain ⟨broadcast, member, recorded, attached, carried,
        notMarked⟩ :=
        ledger.confirmedRows key row (unchanged.symm.trans found)
          confirmed
      obtain ⟨after, isAfter, same, stays⟩ :=
        broadcastKept_sharedStep taken member
      refine ⟨after, isAfter, stays recorded, ?_, ?_, ?_⟩
      · rw [same.txHash]
        exact attached
      · rw [same.pack]
        exact carried
      · rw [same.txHash]
        exact unmarked _ attached notMarked
  | ingested admissible isAccepted after overReorged =>
      cases after.symm.trans found
      cases confirmed
  | @confirmed broadcast receipt _ entry message _ _ _ isFound included
      recorded ofPack ofEntry ofSlot before sameHash unconfirmed after =>
      cases after.symm.trans found
      refine ⟨{ broadcast with phase := .recorded receipt }, ?_,
        ⟨receipt, rfl⟩, rfl, ?_, ?_⟩
      · rw [recorded]
        exact Table.mem_put.mpr (.inl rfl)
      · exact List.mem_flatMap.mpr
          ⟨entry, ofPack, List.mem_map.mpr ⟨message, ofEntry, ofSlot⟩⟩
      · apply unmarked _ rfl
        intro isMarked
        obtain ⟨other, isPhase⟩ :=
          recorded_of_mem (Table.mem_of_get? isFound)
            (ledger.marked _ isMarked)
        rw [included] at isPhase
        cases isPhase
  | marked isWatch before inTx isMarked after =>
      cases after.symm.trans found
      cases confirmed
  | requeued isJudged before attached isMarked after =>
      cases after.symm.trans found
      cases confirmed

theorem ledger_sharedStep
    (ledger : world.Ledger config)
    (taken : sharedStep config world event = some next) :
    next.Ledger config := by
  have isStep :
      systemStep config world (.shared event) = some next :=
    taken
  constructor
  · exact lawful_systemStep ledger.toLawful isStep
  · intro broadcast member other isOther
    rcases (broadcastChange_sharedStep taken member).origin with
      ⟨before, isBefore, same⟩ |
        ⟨_, _, _, _, _, rfl, _, firstSent, _, rfl⟩
    · rcases (broadcastChange_sharedStep taken isOther).origin with
        ⟨otherBefore, isOtherBefore, otherSame⟩ |
          ⟨_, _, _, _, _, rfl, _, _, _, rfl⟩
      · rw [same.txHash, same.earlier, otherSame.txHash,
          otherSame.earlier]
        exact ledger.ordered before isBefore otherBefore isOtherBefore
      · refine .inr (.inl ?_)
        rw [same.txHash]
        exact List.mem_map_of_mem isBefore
    · rcases (broadcastChange_sharedStep taken isOther).origin with
        ⟨otherBefore, isOtherBefore, otherSame⟩ |
          ⟨_, _, _, _, _, isEvent, _, isSent, _, rfl⟩
      · refine .inr (.inr ?_)
        rw [otherSame.txHash]
        exact List.mem_map_of_mem isOtherBefore
      · cases isEvent
        exact .inl (Option.some.inj (firstSent.symm.trans isSent))
  · intro broadcast member txHash isEarlier
    apply get?_sharedStep taken
    rcases (broadcastChange_sharedStep taken member).origin with
      ⟨before, isBefore, same⟩ |
        ⟨_, _, _, _, _, rfl, _, _, _, rfl⟩
    · rw [same.earlier] at isEarlier
      exact ledger.earlier before isBefore txHash isEarlier
    · obtain ⟨other, isOther, rfl⟩ := List.mem_map.mp isEarlier
      rw [Table.mem_rows_iff.mp isOther]
      exact Option.some_ne_none _
  · intro broadcast member txHash isMarked
    apply marked_sharedStep taken
    rcases (broadcastChange_sharedStep taken member).origin with
      ⟨before, isBefore, same⟩ |
        ⟨_, _, _, _, _, rfl, _, _, _, rfl⟩
    · rw [same.markedBefore] at isMarked
      exact ledger.markedBefore before isBefore txHash isMarked
    · exact isMarked
  · intro broadcast member key carried
    apply messageKept_sharedStep taken
    rcases (broadcastChange_sharedStep taken member).origin with
      ⟨before, isBefore, same⟩ |
        ⟨_, _, tick, _, _, rfl, found, _, _, rfl⟩
    · rw [same.pack] at carried
      exact ledger.slots before isBefore key carried
    · exact ledger.tickSlots tick (List.mem_of_getElem? found) key
        carried
  · intro key found
    rcases batchRecorded_sharedStep taken found with before | recorded
    · exact recorded_sharedStep taken (ledger.batches key before)
    · exact recorded
  · intro txHash isMarked
    apply recorded_sharedStep taken
    rw [World.marked] at isMarked
    rcases marks_sharedStep taken with
      same | ⟨mark, marks, ⟨batch, member, ofTx⟩, -⟩
    · rw [same] at isMarked
      exact ledger.marked txHash isMarked
    · rw [marks, List.map_cons] at isMarked
      rcases List.mem_cons.mp isMarked with rfl | before
      · have recorded := ledger.batches batch.key (by
          rw [Store.batch?, Table.mem_rows_iff.mp member]
          exact Option.some_ne_none _)
        rw [← (BatchRow.isOf_iff.mp ofTx).2]
        exact recorded
      · exact ledger.marked txHash before
  · exact confirmedRows_sharedStep ledger taken
  · intro tick member key carried
    apply messageKept_sharedStep taken
    rcases ticks_sharedStep taken member with
      before | ⟨-, -, -, pending⟩
    · exact ledger.tickSlots tick before key carried
    · obtain ⟨row, found, -⟩ := pending key carried
      exact found ▸ Option.some_ne_none _
  · intro tick member txHash known
    apply recorded_sharedStep taken
    rcases ticks_sharedStep taken member with before | ⟨read, -⟩
    · exact ledger.tickKnown tick before txHash known
    · exact read ▸ known

/-- Without a double broadcast a message has one unmarked broadcast. -/
theorem unmarked_unique
    (ledger : world.Ledger config)
    (once : world.BroadcastOnce)
    {broadcast other : Broadcast}
    (member : broadcast ∈ world.broadcasts.rows)
    (isOther : other ∈ world.broadcasts.rows)
    (unmarked : broadcast.txHash ∉ world.marked)
    (otherUnmarked : other.txHash ∉ world.marked)
    {key : MessageKey}
    (carried : key ∈ broadcast.pack.keys)
    (otherCarried : key ∈ other.pack.keys) :
    broadcast = other := by
  rcases ledger.ordered broadcast member other isOther with
    same | before | after
  · exact Table.eq_of_key_eq member isOther same
  · have isMarked :=
      once other isOther broadcast member before key otherCarried carried
    exact absurd (ledger.markedBefore other isOther _ isMarked) unmarked
  · have isMarked :=
      once broadcast member other isOther after key carried otherCarried
    exact absurd (ledger.markedBefore broadcast member _ isMarked)
      otherUnmarked

/-- The confirm transaction confirms the messages of its broadcast in it. -/
theorem holds_of_confirmed
    (ledger : world.Ledger config)
    (once : world.BroadcastOnce)
    {broadcast : Broadcast}
    {receipt : TransactionReceipt}
    {submittedAt : Int}
    {after : Store}
    (member : broadcast ∈ world.broadcasts.rows)
    (committed :
      confirmIncluded config.keccak256 config.loop world.store
        (World.outcomeOf config broadcast receipt) submittedAt =
          .ok after)
    {key : MessageKey}
    (carried : key ∈ broadcast.pack.keys) :
    broadcast.txHash ∈ world.marked ∨
      ∃ row,
        after.message? key = some row ∧
          row.status = .confirmed ∧
          row.batchRef = some broadcast.txHash := by
  by_cases isMarked : broadcast.txHash ∈ world.marked
  · exact .inl isMarked
  refine .inr ?_
  obtain ⟨entry, ofPack, ofEntry⟩ := List.mem_flatMap.mp carried
  obtain ⟨message, isMessage, rfl⟩ := List.mem_map.mp ofEntry
  obtain ⟨old, before⟩ :=
    Option.ne_none_iff_exists'.mp
      (ledger.slots broadcast member message.key carried)
  obtain ⟨row, found, confirmed⟩ :=
    confirmedSlot_confirmEntries committed ofPack isMessage before
  refine ⟨row, found, confirmed, ?_⟩
  rcases message?_confirmEntries committed message.key with
    same | ⟨_, -, _, -, _, _, _, -, -, -, -, taken⟩
  · obtain ⟨other, isOther, recorded, attached, otherCarried,
      otherUnmarked⟩ :=
      ledger.confirmedRows _ row (same.symm.trans found) confirmed
    rw [unmarked_unique ledger once member isOther isMarked otherUnmarked
      carried otherCarried]
    exact attached
  · cases taken.symm.trans found
    rfl

theorem settled_sharedStep
    (ledger : world.Ledger config)
    (once : world.BroadcastOnce)
    (settled : world.Settled)
    (taken : sharedStep config world event = some next) :
    next.Settled := by
  have isStep :
      systemStep config world (.shared event) = some next :=
    taken
  constructor
  · intro broadcast member recorded key carried
    cases broadcastChange_sharedStep taken member with
    | @kept _ before _ isBefore same wasRecorded =>
        rw [same.pack] at carried
        rw [same.txHash]
        rcases settled.holds before isBefore (wasRecorded recorded) key
          carried with isMarked | ⟨row, found, confirmed, attached⟩
        · exact .inl (marked_sharedStep taken isMarked)
        cases slotChange_systemStep isStep key with
        | same unchanged =>
            exact .inr
              ⟨row, unchanged.trans found, confirmed, attached⟩
        | ingested admissible isAccepted after overReorged =>
            cases (overReorged row found).symm.trans confirmed
        | confirmed isFound included recorded ofPack ofEntry ofSlot
            isOld sameHash unconfirmed after =>
            cases isOld.symm.trans found
            exact absurd confirmed unconfirmed
        | marked isWatch isOld inTx isMarked after =>
            cases isOld.symm.trans found
            have sameTx := (MessageRow.isConfirmedIn_iff.mp inTx).1
            rw [attached, Option.some.injEq] at sameTx
            exact .inl (sameTx ▸ isMarked)
        | requeued isJudged isOld ofBatch isMarked after =>
            cases isOld.symm.trans found
            have sameTx := ofBatch.1
            rw [attached, Option.some.injEq] at sameTx
            exact .inl (sameTx ▸ isMarked)
    | confirmed isBefore included committed =>
        rcases holds_of_confirmed ledger once isBefore committed carried
          with isMarked | held
        · exact .inl (marked_sharedStep taken isMarked)
        · exact .inr held
    | sent found isSent fresh unconfirmed =>
        obtain ⟨receipt, isPhase⟩ := recorded
        rcases unconfirmed with rfl | rfl <;> cases isPhase
  · intro tick member broadcast isBroadcast known key ofTick carried
    apply marked_sharedStep taken
    rcases ticks_sharedStep taken member with
      before | ⟨read, -, ⟨now, rfl⟩, pending⟩
    · rcases (broadcastChange_sharedStep taken isBroadcast).origin with
        ⟨old, isOld, same⟩ |
          ⟨_, _, _, _, _, rfl, _, _, fresh, rfl⟩
      · rw [same.txHash] at known ⊢
        rw [same.pack] at carried
        exact settled.ticks tick before old isOld known key ofTick
          carried
      · exact absurd fresh
          (get?_of_recorded (ledger.tickKnown tick before _ known))
    · rcases (broadcastChange_sharedStep taken isBroadcast).origin with
        ⟨old, isOld, same⟩ | ⟨_, _, _, _, _, isSend, -⟩
      · rw [same.txHash] at known ⊢
        rw [same.pack] at carried
        rw [read] at known
        rcases settled.holds old isOld (recorded_of_mem isOld known) key
          carried with isMarked | ⟨row, found, confirmed, -⟩
        · exact isMarked
        · obtain ⟨other, isOther, isPending⟩ := pending key ofTick
          cases isOther.symm.trans found
          cases isPending.symm.trans confirmed
      · cases isSend

/-- A step keeps broadcasts single exactly if it is no early send. -/
theorem broadcastOnce_sharedStep
    (ledger : world.Ledger config)
    (settled : world.Settled)
    (once : world.BroadcastOnce)
    (taken : sharedStep config world event = some next) :
    next.BroadcastOnce ↔ sendsAllow world event := by
  constructor
  · intro onceNext
    unfold sendsAllow
    split
    · rename_i index result
      intro tick found isSome broadcast member key ofTick carried
      obtain ⟨txHash, isSent⟩ := Option.ne_none_iff_exists'.mp isSome
      obtain ⟨phase, isNew⟩ := broadcast_of_tickSend found isSent taken
      obtain ⟨after, isAfter, same, -⟩ :=
        broadcastKept_sharedStep taken member
      have isMarked :=
        onceNext _ isNew after isAfter
          (by
            rw [same.txHash]
            exact List.mem_map_of_mem member)
          key ofTick (by
            rw [same.pack]
            exact carried)
      rw [same.txHash] at isMarked
      exact .inr isMarked
    · trivial
  · intro allowed later isLater earlier isEarlier before key carried
      earlierCarried
    rcases (broadcastChange_sharedStep taken isLater).origin with
      ⟨oldLater, isOldLater, same⟩ |
        ⟨index, result, tick, txHash, phase, rfl, found, isSent, fresh,
          rfl⟩
    · rw [same.earlier] at before
      rw [same.pack] at carried
      rw [same.markedBefore]
      rcases (broadcastChange_sharedStep taken isEarlier).origin with
        ⟨oldEarlier, isOldEarlier, earlierSame⟩ |
          ⟨_, _, _, _, _, rfl, _, _, fresh, rfl⟩
      · rw [earlierSame.txHash] at before ⊢
        rw [earlierSame.pack] at earlierCarried
        exact once oldLater isOldLater oldEarlier isOldEarlier before key
          carried earlierCarried
      · exact absurd fresh (ledger.earlier oldLater isOldLater _ before)
    · obtain ⟨oldEarlier, isOldEarlier, sameHash⟩ :=
        List.mem_map.mp before
      obtain ⟨after, isAfter, earlierSame, -⟩ :=
        broadcastKept_sharedStep taken isOldEarlier
      have isEarlierAfter : earlier = after :=
        Table.eq_of_key_eq isEarlier isAfter
          (sameHash.symm.trans earlierSame.txHash.symm)
      rw [isEarlierAfter, earlierSame.pack] at earlierCarried
      rw [← sameHash]
      have isSome : result.txHash? ≠ none := by
        rw [isSent]
        exact Option.some_ne_none _
      rcases allowed tick found isSome oldEarlier isOldEarlier key carried
        earlierCarried with known | isMarked
      · exact settled.ticks tick (List.mem_of_getElem? found) oldEarlier
          isOldEarlier known key carried earlierCarried
      · exact isMarked

end Steps

/-- In every run of a Poster beside a Reader's watcher, whatever the transport
answers and however its ticks overlap, no message is broadcast again before its
earlier transaction is marked, exactly if every send comes after the earlier
broadcasts of its messages were recorded before its tick, or marked. -/
theorem broadcastOnce_iff_sends_settled
    (config : SystemConfig)
    (events : List SharedEvent) :
    Runs.AllStates (sharedStep config) World.BroadcastOnce
        World.initial events ↔
      Runs.AllSteps (sharedStep config) sendsAllow
        World.initial events := by
  refine @Runs.allStates_iff_allSteps_of_good _ _ (sharedStep config)
    (fun world => world.Ledger config ∧ world.Settled)
    World.BroadcastOnce sendsAllow ?_ ?_ _ events
    ⟨ledger_initial config, settled_initial⟩ ?_
  · rintro world event next ⟨ledger, settled⟩ once - taken
    exact ⟨ledger_sharedStep ledger taken,
      settled_sharedStep ledger once settled taken⟩
  · rintro world event next ⟨ledger, settled⟩ once taken
    exact broadcastOnce_sharedStep ledger settled once taken
  · intro later member
    cases member

/-- A tick starts when no other tick waits to broadcast and every broadcast is
recorded or marked. -/
def startsAllow
    (world : World) : SharedEvent → Bool
  | .poster (.tickStart _) =>
      world.ticks.isEmpty &&
        world.broadcasts.rows.all fun broadcast =>
          broadcast.txHash ∈ world.recorded ||
            broadcast.txHash ∈ world.marked
  | _ => true

/-- At most one tick waits to broadcast, and every broadcast was recorded
before it, or is marked. -/
structure World.Sequential (world : World) : Prop where
  single : world.ticks.length ≤ 1
  settled :
    ∀ tick ∈ world.ticks,
      ∀ broadcast ∈ world.broadcasts.rows,
        broadcast.txHash ∈ tick.recordedBefore ∨
          broadcast.txHash ∈ world.marked

section Sequential

variable {config : SystemConfig}
variable {world next : World}
variable {event : SharedEvent}

/-- A tick ends with its broadcast. -/
theorem ticks_tickSend
    {index : Nat}
    {result : SendResult}
    (taken : world.tickSend index result = some next) :
    index < world.ticks.length ∧
      next.ticks = world.ticks.eraseIdx index := by
  unfold World.tickSend at taken
  split at taken
  · cases taken
  rename_i tick found
  refine ⟨(List.getElem?_eq_some_iff.mp found).1, ?_⟩
  cases result with
  | accepted txHash =>
      obtain ⟨-, rfl⟩ := send_cases taken
      rfl
  | lost txHash error =>
      obtain ⟨middle, isMiddle, rfl⟩ := Option.map_eq_some_iff.mp taken
      obtain ⟨-, rfl⟩ := send_cases isMiddle
      rfl
  | refused error =>
      cases taken
      rfl

/-- A tick adds at most itself to the ticks that wait. -/
theorem ticks_tickStart
    (config : SystemConfig)
    (world : World)
    (now : Int) :
    (world.tickStart config now).ticks.length ≤
      world.ticks.length + 1 := by
  unfold World.tickStart
  split
  · exact Nat.le_succ _
  split
  · exact Nat.le_succ _
  split
  · exact Nat.le_succ _
  · exact Nat.le_succ _
  split
  · exact Nat.le_succ _
  split
  · exact Nat.le_succ _
  · rw [List.length_append]
    exact Nat.le_refl _

/-- Only a tick that starts adds to the ticks that wait. -/
theorem ticks_length
    (taken : sharedStep config world event = some next)
    (unstarted : ∀ now, event ≠ .poster (.tickStart now)) :
    next.ticks.length ≤ world.ticks.length := by
  cases event with
  | readerWatch action =>
      obtain ⟨outcome, -, rfl⟩ := readerWatchStep_cases taken
      exact Nat.le_refl _
  | poster event =>
      cases event with
      | ingest raw withinRateLimit now =>
          cases taken
          exact Nat.le_refl _
      | tickStart now =>
          exact absurd rfl (unstarted now)
      | tickSend index result =>
          rw [(ticks_tickSend taken).2]
          exact List.length_eraseIdx_le _ _
      | tickReceipt txHash result =>
          simp only [sharedStep, posterStep, World.tickReceipt] at taken
          split at taken
          · cases taken
          split at taken
          · split at taken <;> (cases taken; exact Nat.le_refl _)
          · cases taken
      | tickConfirm txHash submittedAt =>
          simp only [sharedStep, posterStep, World.tickConfirm] at taken
          split at taken
          · cases taken
          split at taken
          · split at taken <;> (cases taken; exact Nat.le_refl _)
          · cases taken
      | tickFail txHash =>
          simp only [sharedStep, posterStep, World.tickFail] at taken
          split at taken
          · cases taken
          split at taken
          · cases taken
            exact Nat.le_refl _
          · cases taken
      | tickDrop index =>
          cases taken
          exact List.length_eraseIdx_le _ _
      | restart =>
          cases taken
          exact Nat.zero_le _
      | watch action =>
          obtain ⟨outcome, -, rfl⟩ := Option.map_eq_some_iff.mp taken
          exact Nat.le_refl _
      | chain canonical =>
          cases taken
          exact Nat.le_refl _

theorem sequential_sharedStep
    (sequential : world.Sequential)
    (allowed : startsAllow world event = true)
    (taken : sharedStep config world event = some next) :
    next.Sequential := by
  by_cases isSend : ∃ index result, event = .poster (.tickSend index result)
  · obtain ⟨index, result, rfl⟩ := isSend
    obtain ⟨inRange, isNext⟩ := ticks_tickSend taken
    have none : next.ticks = [] := by
      rw [isNext, ← List.length_eq_zero_iff,
        List.length_eraseIdx_of_lt inRange]
      have single := sequential.single
      omega
    refine ⟨by simp [none], fun tick member => ?_⟩
    rw [none] at member
    cases member
  by_cases isStart : ∃ now, event = .poster (.tickStart now)
  · obtain ⟨now, rfl⟩ := isStart
    rw [startsAllow, Bool.and_eq_true, List.isEmpty_iff,
      List.all_eq_true] at allowed
    constructor
    · cases taken
      have grown := ticks_tickStart config world now
      rw [allowed.1] at grown
      exact grown
    · intro tick member broadcast isBroadcast
      rcases ticks_sharedStep taken member with before | ⟨read, -⟩
      · rw [allowed.1] at before
        cases before
      rcases (broadcastChange_sharedStep taken isBroadcast).origin with
        ⟨old, isOld, same⟩ | ⟨_, _, _, _, _, isSent, -⟩
      · have known := allowed.2 old isOld
        rw [Bool.or_eq_true, decide_eq_true_eq, decide_eq_true_eq]
          at known
        rw [read, same.txHash]
        exact known.imp_right (marked_sharedStep taken)
      · cases isSent
  · constructor
    · exact (ticks_length taken
        (fun now isEvent => isStart ⟨now, isEvent⟩)).trans
          sequential.single
    · intro tick member broadcast isBroadcast
      rcases ticks_sharedStep taken member with
        before | ⟨-, -, started, -⟩
      · rcases (broadcastChange_sharedStep taken isBroadcast).origin with
          ⟨old, isOld, same⟩ | ⟨index, result, _, _, _, isEvent, -⟩
        · rw [same.txHash]
          exact (sequential.settled tick before old isOld).imp_right
            (marked_sharedStep taken)
        · exact absurd ⟨index, result, isEvent⟩ isSend
      · exact absurd started isStart

/-- The sends of a Poster whose ticks do not overlap and leave no broadcast
unsettled are allowed. -/
theorem sendsAllow_of_sequential
    (sequential : world.Sequential) :
    sendsAllow world event := by
  unfold sendsAllow
  split
  · intro tick found _ broadcast member _ _ _
    exact sequential.settled tick (List.mem_of_getElem? found) broadcast
      member
  · trivial

end Sequential

/-- A Poster that starts a tick only when no other waits to broadcast and every
broadcast is recorded or marked broadcasts a message again only where the
earlier broadcast was marked. -/
theorem broadcastOnce_of_sequential
    {config : SystemConfig}
    {events : List SharedEvent}
    (allowed :
      Runs.AllSteps (sharedStep config)
        (fun world event => startsAllow world event = true)
        World.initial events) :
    Runs.AllStates (sharedStep config) World.BroadcastOnce
      World.initial events := by
  suffices all :
      Runs.AllStates (sharedStep config)
        (fun world =>
          (world.Ledger config ∧ world.Settled ∧ world.Sequential) ∧
            world.BroadcastOnce)
        World.initial events from
    all.mono fun _ holds => holds.2
  refine Runs.allStates_of_invariant ?_ ?_ allowed
  · rintro world event next ⟨⟨ledger, settled, sequential⟩, once⟩
      startAllowed taken
    refine ⟨⟨ledger_sharedStep ledger taken,
      settled_sharedStep ledger once settled taken,
      sequential_sharedStep sequential startAllowed taken⟩, ?_⟩
    exact (broadcastOnce_sharedStep ledger settled once taken).mpr
      (sendsAllow_of_sequential sequential)
  · refine ⟨⟨ledger_initial config, settled_initial, ?_⟩, ?_⟩
    · exact ⟨Nat.zero_le _, fun tick member => by cases member⟩
    · intro later member
      cases member

/-- A message is broadcast in transaction 1, whose receipt comes or times out,
and another tick follows. -/
def broadcastRun
    (result : Except ErrorText TransactionReceipt)
    (others : List PosterEvent) : List SharedEvent :=
  let first : List PosterEvent :=
    [sampleRequest 5 0 [3], .tickStart 0, .tickSend 0 (.accepted 1),
      .tickReceipt 1 result]
  let second : List PosterEvent :=
    [.tickStart 0, .tickSend 0 (.accepted 2)]
  (first ++ others ++ second).map .poster

/-- `sharedStep` without the checks before a broadcast. -/
def sharedPlanStep
    (config : SystemConfig)
    (world : World) : SharedEvent → Option World
  | .poster event => planStep config world event
  | .readerWatch action => world.readerWatchStep config action

theorem sharedStep_eq_sharedPlanStep
    {config : SystemConfig}
    (defaultFEs : config.capacityFEs = none)
    (defaultBytes : config.capacityBytes = none) :
    sharedStep config = sharedPlanStep config := by
  funext world event
  cases event with
  | poster event =>
      show posterStep config world event = _
      rw [posterStep_eq_planStep defaultFEs defaultBytes]
      rfl
  | readerWatch action =>
      rfl

theorem sharedStep_sampleConfig :
    sharedStep sampleConfig = sharedPlanStep sampleConfig :=
  sharedStep_eq_sharedPlanStep rfl rfl

/-- Two messages, each confirmed or sent before the next tick starts. -/
theorem broadcastOnce_of_confirmed :
    Runs.AllStates (sharedStep sampleConfig) World.BroadcastOnce
      World.initial
      (broadcastRun
        (.ok
          { status := true
            blockNumber := 100
            transactionIndex := 0 })
        [.tickConfirm 1 0, sampleRequest 5 1 [4]]) :=
  broadcastOnce_of_sequential (by
    rw [sharedStep_sampleConfig]
    decide +kernel)

/-- After a receipt that times out the message is broadcast again. -/
example :
    ¬ Runs.AllStates (sharedStep sampleConfig) World.BroadcastOnce
      World.initial (broadcastRun (.error "timeout") []) := by
  intro all
  rw [sharedStep_sampleConfig] at all
  have view :
      (Runs.exec? (sharedPlanStep sampleConfig) World.initial
        (broadcastRun (.error "timeout") [])).map (fun world =>
          decide world.BroadcastOnce) = some false := by
    decide +kernel
  obtain ⟨final, executed, notOnce⟩ := Option.map_eq_some_iff.mp view
  exact of_decide_eq_false notOnce (all.final executed)

end Bam
