import Bam.Poster.Submitted
import Bam.System.Acceptance
import Bam.System.Commutation

namespace Bam

/-!
# What the Poster says it has submitted

A message row keeps its message for good, and a batch row stays the record of
its broadcast, whatever watchers mark and later transactions replace.  So the
answers of `/submitted` can be checked against the broadcasts.
-/

/-- The row holds a message of the tag. -/
structure MessageRow.Holds
    (row : MessageRow)
    (contentTag : Bytes32)
    (message : DecodedMessage) : Prop where
  contentTag : row.contentTag = contentTag
  contents : row.contents = message.contents
  signature : row.signature = message.signature
  messageHash : row.messageHash = message.messageHash

/-- The rows are of one message. -/
structure MessageRow.SameMessage
    (before after : MessageRow) : Prop where
  contentTag : after.contentTag = before.contentTag
  contents : after.contents = before.contents
  signature : after.signature = before.signature
  messageHash : after.messageHash = before.messageHash

/-- The store has the messages of the pack. -/
def Store.Carries
    (store : Store)
    (pack : PackResult) : Prop :=
  ∀ entry ∈ submittedEntries pack,
    ∀ message ∈ entry.messages,
      ∃ row,
        store.message? message.key = some row ∧
          row.Holds entry.contentTag message

/-- What every step keeps: accepted nonces are used up, and what is planned or
broadcast is in the store. -/
structure World.Carrying (world : World) : Prop extends world.Tracked where
  ticks : ∀ tick ∈ world.ticks, world.store.Carries tick.pack
  broadcasts :
    ∀ broadcast ∈ world.broadcasts.rows,
      world.store.Carries broadcast.pack

theorem carrying_initial : World.initial.Carrying where
  toTracked := tracked_initial
  ticks := nofun
  broadcasts := by
    intro broadcast member
    cases member

section Messages

variable {config : SystemConfig}
variable {world next : World}
variable {event : SharedEvent}

theorem MessageRow.SameMessage.holds
    {before after : MessageRow}
    {contentTag : Bytes32}
    {message : DecodedMessage}
    (same : before.SameMessage after)
    (holds : before.Holds contentTag message) :
    after.Holds contentTag message where
  contentTag := same.contentTag.trans holds.contentTag
  contents := same.contents.trans holds.contents
  signature := same.signature.trans holds.signature
  messageHash := same.messageHash.trans holds.messageHash

/-- Ingest leaves a used slot alone. -/
theorem message?_ingest_of_used
    (tracked : world.Tracked)
    (raw : RawEnvelope)
    (withinRateLimit : Bool)
    (now : Int)
    {key : MessageKey}
    {row : MessageRow}
    (found : world.store.message? key = some row) :
    (world.ingest config raw withinRateLimit now).store.message? key =
      some row := by
  rcases ingest_cases config world raw withinRateLimit now with
    same | ⟨decoded, after, result, -, -, -, -, committed, isNext⟩
  · rw [same]
    exact found
  rw [isNext]
  rcases (ingestTxn_ok committed).2 with
    ⟨sameMessages, -⟩ | ⟨-, -, ⟨seq, messages⟩, -, -, isNew⟩
  · rw [Store.message?, sameMessages]
    exact found
  · rw [tracked.seed] at isNew
    rw [Store.message?, messages, Table.get?_put]
    split
    · rename_i ofSlot
      obtain ⟨tracker, isTracker, behind⟩ := tracked.ahead key row found
      rw [← ofSlot] at isTracker behind
      exact absurd behind (Nat.not_le.mpr (isNew tracker isTracker))
    · exact found

/-- A message row stays the row of its message. -/
theorem sameMessage_sharedStep
    (carrying : world.Carrying)
    (taken : sharedStep config world event = some next)
    {key : MessageKey}
    {row : MessageRow}
    (found : world.store.message? key = some row) :
    ∃ after,
      next.store.message? key = some after ∧ row.SameMessage after := by
  have isStep :
      systemStep config world (.shared event) = some next :=
    taken
  cases slotChange_systemStep isStep key with
  | same unchanged =>
      exact ⟨row, unchanged.trans found, rfl, rfl, rfl, rfl⟩
  | ingested admissible isAccepted after overReorged =>
      cases taken
      exact ⟨row, message?_ingest_of_used carrying.toTracked _ _ _ found,
        rfl, rfl, rfl, rfl⟩
  | confirmed isFound included recorded ofPack ofEntry ofSlot before
      sameHash unconfirmed after =>
      cases before.symm.trans found
      obtain ⟨held, isHeld, holds⟩ :=
        carrying.broadcasts _ (Table.mem_of_get? isFound) _ ofPack _
          ofEntry
      rw [ofSlot] at isHeld
      cases before.symm.trans isHeld
      exact ⟨_, after, holds.contentTag.symm, holds.contents.symm,
        holds.signature.symm, holds.messageHash.symm⟩
  | marked isWatch before inTx isMarked after =>
      cases before.symm.trans found
      exact ⟨_, after, rfl, rfl, rfl, rfl⟩
  | requeued isJudged before attached isMarked after =>
      cases before.symm.trans found
      exact ⟨_, after, attached.2.symm, rfl, rfl, rfl⟩

theorem Store.Carries.step
    {pack : PackResult}
    (carrying : world.Carrying)
    (taken : sharedStep config world event = some next)
    (carries : world.store.Carries pack) :
    next.store.Carries pack := by
  intro entry isEntry message isMessage
  obtain ⟨row, found, holds⟩ := carries entry isEntry message isMessage
  obtain ⟨after, isAfter, same⟩ :=
    sameMessage_sharedStep carrying taken found
  exact ⟨after, isAfter, same.holds holds⟩

/-- A tick plans what is in the store. -/
theorem carries_tickStart
    (ticks : ∀ tick ∈ world.ticks, world.store.Carries tick.pack)
    {now : Int}
    {tick : PendingTick}
    (member : tick ∈ (world.tickStart config now).ticks) :
    world.store.Carries tick.pack := by
  cases tickStart_cases config world now with
  | quiet same broadcasts kept =>
      exact ticks tick (kept tick member)
  | phased found leads arrived same broadcasts isTicks =>
      exact ticks tick (isTicks ▸ member)
  | prepared read ticked nonempty same broadcasts isTicks =>
      rw [isTicks] at member
      rcases List.mem_append.mp member with before | isNew
      · exact ticks tick before
      · rw [List.mem_singleton] at isNew
        subst isNew
        intro entry isEntry message isMessage
        obtain ⟨row, inTable, ofTag, -, sameKey, sameContents,
            sameSignature, sameHash⟩ :=
          row_of_planned read ticked isEntry isMessage
        refine ⟨row, ?_, ofTag, sameContents.symm, sameSignature.symm,
          sameHash.symm⟩
        rw [sameKey]
        exact Table.mem_rows_iff.mp inTable

theorem carrying_sharedStep
    (carrying : world.Carrying)
    (taken : sharedStep config world event = some next) :
    next.Carrying where
  toTracked := tracked_sharedStep carrying.toTracked taken
  ticks := by
    intro tick member
    rcases ticks_sharedStep taken member with
      before | ⟨-, -, ⟨now, rfl⟩, -⟩
    · exact (carrying.ticks tick before).step carrying taken
    · have planned : world.store.Carries tick.pack := by
        cases taken
        exact carries_tickStart carrying.ticks member
      exact planned.step carrying taken
  broadcasts := by
    intro broadcast member
    cases broadcastChange_sharedStep taken member with
    | kept before same =>
        rw [same.pack]
        exact (carrying.broadcasts _ before).step carrying taken
    | confirmed before =>
        exact (carrying.broadcasts _ before).step carrying taken
    | sent found =>
        exact (carrying.ticks _ (List.mem_of_getElem? found)).step
          carrying taken

end Messages

/-! ## The confirm transaction -/

section Confirm

variable {keccak256 : Bytes → Bytes32}
variable {opts : AggregatorLoopOptions}
variable {outcome : PackedSubmitIncluded}
variable {submittedAt : Int}

/-- What is paired with an item. -/
theorem exists_of_mem_forall₂
    {α β : Type}
    {relation : α → β → Prop}
    {items : List α}
    {others : List β}
    (pairs : List.Forall₂ relation items others)
    {other : β}
    (member : other ∈ others) :
    ∃ item ∈ items, relation item other := by
  induction pairs with
  | nil =>
      cases member
  | @cons item _ _ _ isPair _ inductionHypothesis =>
      rcases List.mem_cons.mp member with rfl | inRest
      · exact ⟨item, List.mem_cons_self, isPair⟩
      · obtain ⟨later, isLater, isPair⟩ := inductionHypothesis inRest
        exact ⟨later, List.mem_cons_of_mem _ isLater, isPair⟩

/-- The snapshot of an entry names its messages in order. -/
theorem forall₂_entrySnapshot
    {contentTag batchContentHash : Bytes32}
    {index : Nat}
    {messages : List DecodedMessage}
    {snapshot : List BatchMessageSnapshotEntry}
    (snapshotted :
      entrySnapshot keccak256 contentTag batchContentHash index messages =
        .ok snapshot) :
    List.Forall₂
      (fun message entry =>
        entry.key = message.key ∧
          entry.messageHash = message.messageHash ∧
          computeMessageId keccak256 message.sender contentTag
            message.nonce batchContentHash = some entry.messageId)
      messages snapshot := by
  induction messages generalizing index snapshot with
  | nil =>
      cases snapshotted
      exact .nil
  | cons message rest inductionHypothesis =>
      rw [entrySnapshot] at snapshotted
      split at snapshotted
      · cases snapshotted
      rename_i messageId isId
      split at snapshotted
      · cases snapshotted
      rename_i later isLater
      cases snapshotted
      exact .cons ⟨rfl, rfl, isId⟩ (inductionHypothesis isLater)

/-- The row is the one an entry of the transaction is recorded in. -/
def BatchRow.WrittenFor
    (keccak256 : Bytes → Bytes32)
    (opts : AggregatorLoopOptions)
    (outcome : PackedSubmitIncluded)
    (submittedAt : Int)
    (entry : PackedSubmitIncludedEntry)
    (batch : BatchRow) : Prop :=
  ∃ snapshot,
    entrySnapshot keccak256 entry.contentTag outcome.blobVersionedHash 0
        entry.messages = .ok snapshot ∧
      batch =
        confirmedBatch opts outcome submittedAt entry.contentTag snapshot

/-- The row is an older one; a reorged row may have got the transaction as its
replacement, which then carries one of its messages. -/
inductive BatchRow.LinkedBy
    (outcome : PackedSubmitIncluded)
    (old : BatchRow) : BatchRow → Prop where
  | same : LinkedBy outcome old old
  | replaced
      {entry : PackedSubmitIncludedEntry}
      {named : BatchMessageSnapshotEntry}
      {message : DecodedMessage}
      (reorged : old.status = .reorged)
      (unreplaced : old.replacedByTxHash = none)
      (ofOutcome : entry ∈ outcome.entries)
      (sameTag : old.contentTag = entry.contentTag)
      (isNamed : named ∈ old.messageSnapshot)
      (ofEntry : message ∈ entry.messages)
      (sameHash : named.messageHash = message.messageHash) :
      LinkedBy outcome old
        { old with
          status := .reorged
          replacedByTxHash := some outcome.txHash }

/-- What the confirm transaction has done so far. -/
structure Store.ConfirmedOver
    (keccak256 : Bytes → Bytes32)
    (opts : AggregatorLoopOptions)
    (outcome : PackedSubmitIncluded)
    (submittedAt : Int)
    (store next : Store) : Prop where
  rows :
    ∀ key batch,
      next.batch? key = some batch →
      (∃ entry ∈ outcome.entries,
        batch.WrittenFor keccak256 opts outcome submittedAt entry) ∨
        ∃ old, store.batch? key = some old ∧ old.LinkedBy outcome batch
  kept : ∀ key, store.batch? key ≠ none → next.batch? key ≠ none

/-- The batch rows after the writes for an entry. -/
theorem batch?_confirmEntry_eq
    {entry : PackedSubmitIncludedEntry}
    {store next : Store}
    (confirmed :
      confirmEntry keccak256 opts outcome submittedAt entry store =
        .ok next) :
    ∃ snapshot,
      entrySnapshot keccak256 entry.contentTag outcome.blobVersionedHash 0
          entry.messages = .ok snapshot ∧
        ∀ key,
          next.batch? key =
            ((store.upsertBatch
              (confirmedBatch opts outcome submittedAt entry.contentTag
                snapshot)).batch? key).map fun batch =>
                  if (replaceableQuery opts outcome
                      entry.contentTag).admits batch then
                    batch.chained outcome.txHash
                      (snapshot.map BatchMessageSnapshotEntry.messageHash)
                  else batch := by
  unfold confirmEntry at confirmed
  split at confirmed
  · cases confirmed
  rename_i snapshot snapshotted
  refine ⟨snapshot, snapshotted, fun key => ?_⟩
  split at confirmed
  · cases confirmed
  rename_i observed isObserved
  split at confirmed
  · cases confirmed
  rename_i after chained
  cases confirmed
  obtain ⟨expected, isExpected, rows⟩ :=
    @chainReplaced_listed outcome.txHash
      (snapshot.map BatchMessageSnapshotEntry.messageHash)
      (replaceableQuery opts outcome entry.contentTag) observed
  cases chained.symm.trans isExpected
  rw [rows, Store.batch?, batches_confirmMessages isObserved]
  rfl

/-- A row is as before, or linked, once the chaining loop has passed it. -/
theorem BatchRow.LinkedBy.chained
    {entry : PackedSubmitIncludedEntry}
    {snapshot : List BatchMessageSnapshotEntry}
    {old batch : BatchRow}
    (linked : old.LinkedBy outcome batch)
    (ofOutcome : entry ∈ outcome.entries)
    (snapshotted :
      entrySnapshot keccak256 entry.contentTag outcome.blobVersionedHash 0
        entry.messages = .ok snapshot)
    (admitted :
      (replaceableQuery opts outcome entry.contentTag).admits batch =
        true) :
    old.LinkedBy outcome
      (batch.chained outcome.txHash
        (snapshot.map BatchMessageSnapshotEntry.messageHash)) := by
  cases linked with
  | same =>
      unfold BatchRow.chained
      split
      · exact .same
      rename_i unreplaced
      split
      · rename_i overlaps
        simp only [BatchesQuery.admits, replaceableQuery,
          Option.all_some, Bool.and_eq_true,
          decide_eq_true_eq] at admitted
        obtain ⟨named, isNamed, shared⟩ := List.any_eq_true.mp overlaps
        obtain ⟨other, isOther, sameHash⟩ :=
          List.mem_map.mp (of_decide_eq_true shared)
        obtain ⟨message, ofEntry, -, isHash, -⟩ :=
          exists_of_mem_forall₂ (forall₂_entrySnapshot snapshotted) isOther
        exact .replaced admitted.1.2 (not_not.mp unreplaced) ofOutcome
          admitted.1.1.1 isNamed ofEntry (sameHash.symm.trans isHash)
      · exact .same
  | replaced reorged unreplaced isEntry sameTag isNamed ofEntry sameHash =>
      unfold BatchRow.chained
      rw [if_pos (Option.some_ne_none _)]
      exact .replaced reorged unreplaced isEntry sameTag isNamed ofEntry
        sameHash

theorem BatchRow.upsertedBy_self
    (batch : BatchRow) :
    batch.upsertedBy batch = batch := by
  simp [BatchRow.upsertedBy]

theorem confirmedOver_confirmEntry
    {entry : PackedSubmitIncludedEntry}
    {store middle next : Store}
    (sameMessages :
      ∀ first ∈ outcome.entries,
        ∀ second ∈ outcome.entries,
          first.contentTag = second.contentTag →
          first.messages = second.messages)
    (fresh :
      ∀ key batch,
        store.batch? key = some batch → key.2.1 ≠ outcome.txHash)
    (soFar :
      store.ConfirmedOver keccak256 opts outcome submittedAt middle)
    (ofOutcome : entry ∈ outcome.entries)
    (confirmed :
      confirmEntry keccak256 opts outcome submittedAt entry middle =
        .ok next) :
    store.ConfirmedOver keccak256 opts outcome submittedAt next := by
  obtain ⟨snapshot, snapshotted, rows⟩ := batch?_confirmEntry_eq confirmed
  have unadmitted :
      ∀ {other : PackedSubmitIncludedEntry} {batch : BatchRow},
        batch.WrittenFor keccak256 opts outcome submittedAt other →
        (replaceableQuery opts outcome entry.contentTag).admits batch =
          false := by
    rintro other _ ⟨_, -, rfl⟩
    simp [BatchesQuery.admits, replaceableQuery, confirmedBatch]
  constructor
  · intro key batch found
    rw [rows] at found
    obtain ⟨before, isBefore, rfl⟩ := Option.map_eq_some_iff.mp found
    rw [Store.batch?_upsertBatch] at isBefore
    split at isBefore
    · rename_i ofEntry
      have written :
          before.WrittenFor keccak256 opts outcome submittedAt entry := by
        refine ⟨snapshot, snapshotted, ?_⟩
        cases existing : middle.batch? (confirmedBatch opts outcome
            submittedAt entry.contentTag snapshot).key with
        | none =>
            rw [existing] at isBefore
            exact (Option.some.inj isBefore).symm
        | some row =>
            rw [existing] at isBefore
            rcases soFar.rows _ row existing with
              ⟨other, isOther, otherSnapshot, otherSnapshotted, rfl⟩ |
                ⟨old, isOld, -⟩
            · have keyed := Store.key_of_batch? existing
              have sameTag : other.contentTag = entry.contentTag :=
                congrArg (fun key => key.2.2) keyed
              rw [sameTag,
                sameMessages other isOther entry ofOutcome sameTag,
                snapshotted] at otherSnapshotted
              cases otherSnapshotted
              rw [sameTag] at isBefore
              exact (Option.some.inj isBefore).symm.trans
                (BatchRow.upsertedBy_self _)
            · exact absurd rfl (fresh _ old isOld)
      rw [if_neg (by simp [unadmitted written])]
      exact .inl ⟨entry, ofOutcome, written⟩
    · rcases soFar.rows key before isBefore with
        ⟨other, isOther, written⟩ | ⟨old, isOld, linked⟩
      · rw [if_neg (by simp [unadmitted written])]
        exact .inl ⟨other, isOther, written⟩
      · refine .inr ⟨old, isOld, ?_⟩
        split
        · rename_i admitted
          exact linked.chained ofOutcome snapshotted admitted
        · exact linked
  · intro key present
    rw [rows, Store.batch?_upsertBatch]
    split
    · simp
    · simpa using soFar.kept key present

theorem confirmedOver_confirmEntries
    {entries : List PackedSubmitIncludedEntry}
    {store middle next : Store}
    (sameMessages :
      ∀ first ∈ outcome.entries,
        ∀ second ∈ outcome.entries,
          first.contentTag = second.contentTag →
          first.messages = second.messages)
    (fresh :
      ∀ key batch,
        store.batch? key = some batch → key.2.1 ≠ outcome.txHash)
    (within : ∀ entry ∈ entries, entry ∈ outcome.entries)
    (soFar :
      store.ConfirmedOver keccak256 opts outcome submittedAt middle)
    (confirmed :
      confirmEntries keccak256 opts outcome submittedAt entries middle =
        .ok next) :
    store.ConfirmedOver keccak256 opts outcome submittedAt next := by
  induction entries generalizing middle with
  | nil =>
      cases confirmed
      exact soFar
  | cons entry rest inductionHypothesis =>
      rw [List.forall_mem_cons] at within
      rw [confirmEntries] at confirmed
      split at confirmed
      · cases confirmed
      rename_i after isAfter
      exact inductionHypothesis within.2
        (confirmedOver_confirmEntry sameMessages fresh soFar within.1
          isAfter)
        confirmed

/-- What a confirm transaction does to batch rows. -/
theorem confirmedOver_confirmIncluded
    {store next : Store}
    (sameMessages :
      ∀ first ∈ outcome.entries,
        ∀ second ∈ outcome.entries,
          first.contentTag = second.contentTag →
          first.messages = second.messages)
    (fresh :
      ∀ key batch,
        store.batch? key = some batch → key.2.1 ≠ outcome.txHash)
    (committed :
      confirmIncluded keccak256 opts store outcome submittedAt =
        .ok next) :
    store.ConfirmedOver keccak256 opts outcome submittedAt next :=
  confirmedOver_confirmEntries sameMessages fresh (fun _ => id)
    ⟨fun _ batch found => .inr ⟨batch, found, .same⟩, fun _ => id⟩
    committed

end Confirm

/-! ## Batch rows as records -/

/-- A recorded transaction carries a message of the entry again. -/
def World.Replaces
    (world : World)
    (entry : PackedSubmitIncludedEntry)
    (txHash : Bytes32) : Prop :=
  ∃ other ∈ world.broadcasts.rows,
    other.Recorded ∧
      other.txHash = txHash ∧
      ∃ again ∈ submittedEntries other.pack,
        again.contentTag = entry.contentTag ∧
          ∃ message ∈ entry.messages,
            ∃ copy ∈ again.messages,
              copy.messageHash = message.messageHash

/-- The row records an entry of the broadcast. -/
structure BatchRow.Records
    (config : SystemConfig)
    (world : World)
    (broadcast : Broadcast)
    (receipt : TransactionReceipt)
    (entry : PackedSubmitIncludedEntry)
    (batch : BatchRow) : Prop where
  chainId : batch.chainId = config.chainId
  txHash : batch.txHash = broadcast.txHash
  contentTag : batch.contentTag = entry.contentTag
  blobVersionedHash :
    batch.blobVersionedHash = broadcast.blobVersionedHash
  batchContentHash :
    batch.batchContentHash = broadcast.blobVersionedHash
  blockNumber : batch.blockNumber = some receipt.blockNumber
  submitted : batch.isSubmitted = true
  snapshot :
    entrySnapshot config.keccak256 entry.contentTag
        broadcast.blobVersionedHash 0 entry.messages =
      .ok batch.messageSnapshot
  standing :
    broadcast.txHash ∉ world.marked →
    batch.status = .confirmed ∧
      batch.replacedByTxHash = none ∧ batch.invalidatedAt = none
  dropped :
    broadcast.txHash ∈ world.marked →
    batch.status = .reorged ∧ batch.invalidatedAt ≠ none
  replaced :
    ∀ txHash,
      batch.replacedByTxHash = some txHash → world.Replaces entry txHash

/-- The batch rows are the records of the recorded broadcasts. -/
structure World.Booked
    (config : SystemConfig)
    (world : World) : Prop where
  rows :
    ∀ key batch,
      world.store.batch? key = some batch →
      ∃ broadcast ∈ world.broadcasts.rows,
        ∃ receipt,
          broadcast.phase = .recorded receipt ∧
            ∃ entry ∈ submittedEntries broadcast.pack,
              batch.Records config world broadcast receipt entry
  all :
    ∀ broadcast ∈ world.broadcasts.rows,
      broadcast.Recorded →
      ∀ entry ∈ submittedEntries broadcast.pack,
        world.store.batch?
          (config.chainId, broadcast.txHash, entry.contentTag) ≠ none

theorem booked_initial
    (config : SystemConfig) :
    World.initial.Booked config where
  rows := by
    intro key batch found
    cases found
  all := by
    intro broadcast member
    cases member

/-- What a step can do to batch rows, marks and recorded broadcasts. -/
inductive BatchesChange
    (config : SystemConfig)
    (world next : World) : Prop where
  | kept
      (batches :
        ∀ key, next.store.batch? key = world.store.batch? key)
      (marks : next.marks = world.marks)
      (recorded :
        ∀ broadcast,
          broadcast.Recorded →
          (broadcast ∈ next.broadcasts.rows ↔
            broadcast ∈ world.broadcasts.rows))
  | marked
      {mark : Mark}
      {invalidatedAt : Int}
      (batches :
        ∀ key,
          next.store.batch? key =
            (world.store.batch? key).map fun batch =>
              if batch.isOf config.chainId mark.txHash then
                batch.markedReorged invalidatedAt
              else batch)
      (marks : next.marks = mark :: world.marks)
      (broadcasts : next.broadcasts = world.broadcasts)
  | confirmed
      {broadcast : Broadcast}
      {receipt : TransactionReceipt}
      {submittedAt : Int}
      (found : world.broadcasts.get? broadcast.txHash = some broadcast)
      (included : broadcast.phase = .included receipt)
      (committed :
        confirmIncluded config.keccak256 config.loop world.store
          (World.outcomeOf config broadcast receipt) submittedAt =
            .ok next.store)
      (broadcasts :
        next.broadcasts =
          world.broadcasts.put
            { broadcast with phase := .recorded receipt })
      (marks : next.marks = world.marks)

section Records

variable {config : SystemConfig}
variable {world next : World}
variable {event : SharedEvent}

/-- Storing a broadcast over none that is recorded. -/
theorem recorded_put
    {after : Broadcast}
    (unrecorded : ¬ after.Recorded)
    (before :
      ∀ old ∈ world.broadcasts.rows,
        old.txHash = after.txHash → ¬ old.Recorded)
    (broadcast : Broadcast)
    (recorded : broadcast.Recorded) :
    broadcast ∈ (world.broadcasts.put after).rows ↔
      broadcast ∈ world.broadcasts.rows := by
  constructor
  · intro member
    rcases Table.mem_put.mp member with rfl | ⟨member, -⟩
    · exact absurd recorded unrecorded
    · exact member
  · intro member
    exact Table.mem_put.mpr (.inr ⟨member, fun same =>
      before broadcast member same recorded⟩)

theorem batchesChange_sharedStep
    (taken : sharedStep config world event = some next) :
    BatchesChange config world next := by
  cases event with
  | readerWatch action =>
      obtain ⟨outcome, stepped, rfl⟩ := readerWatchStep_cases taken
      rcases watchStep_store stepped with
        ⟨same, marks⟩ | ⟨_, _, _, _, -, -, marked, marks⟩
      · exact .kept (fun key => by rw [same]) marks fun _ _ => Iff.rfl
      · have rows := fun key => Store.batch?_markReorged marked key
        exact .marked rows marks rfl
  | poster event =>
      cases posterStep_cases taken with
      | quiet same broadcasts =>
          exact .kept (fun key => by rw [same.store]) same.marks
            fun _ _ => by rw [broadcasts]
      | ingested raw withinRateLimit now =>
          refine .kept (fun key => ?_) rfl fun _ _ => Iff.rfl
          rw [Store.batch?, batches_ingest, Store.batch?]
      | prepared read ticked nonempty same broadcasts =>
          exact .kept (fun key => by rw [same.store]) same.marks
            fun _ _ => by rw [broadcasts]
      | sent found isSent fresh unconfirmed same broadcasts =>
          refine .kept (fun key => by rw [same.store]) same.marks ?_
          rw [broadcasts]
          refine recorded_put ?_ ?_
          · rintro ⟨receipt, isPhase⟩
            rcases unconfirmed with rfl | rfl <;> cases isPhase
          · intro old isOld sameTx
            have isFound := Table.mem_rows_iff.mp isOld
            rw [sameTx] at isFound
            cases fresh.symm.trans isFound
      | phased found leads arrived same broadcasts =>
          refine .kept (fun key => by rw [same.store]) same.marks ?_
          rw [broadcasts]
          refine recorded_put ?_ ?_
          · rintro ⟨receipt, isPhase⟩
            dsimp only at isPhase
            subst isPhase
            exact not_leads_recorded leads
          · rintro old isOld sameTx ⟨receipt, isPhase⟩
            cases Table.eq_of_key_eq isOld (Table.mem_of_get? found)
              sameTx
            rw [isPhase] at leads
            exact not_recorded_leads leads
      | confirmed found included committed =>
          exact .confirmed found included committed rfl rfl
      | restarted =>
          refine .kept (fun _ => rfl) rfl fun broadcast recorded => ?_
          obtain ⟨receipt, isPhase⟩ := recorded
          rw [mem_broadcasts_restart]
          constructor
          · rintro ⟨old, isOld, same⟩
            split at same
            · subst same
              cases isPhase
            · exact same ▸ isOld
          · intro member
            refine ⟨broadcast, member, ?_⟩
            rw [World.inFlight, isPhase]
            rfl
      | watched stepped =>
          rcases watchStep_store stepped with
            ⟨same, marks⟩ | ⟨_, _, _, _, -, -, reorged, marks⟩
          · exact .kept (fun key => by rw [same]) marks
              fun _ _ => Iff.rfl
          · exact .marked (batch?_reorgBatch reorged) marks rfl
      | chained canonical =>
          exact .kept (fun _ => rfl) rfl fun _ _ => Iff.rfl

theorem World.Replaces.step
    {entry : PackedSubmitIncludedEntry}
    {txHash : Bytes32}
    (replaces : world.Replaces entry txHash)
    (taken : sharedStep config world event = some next) :
    next.Replaces entry txHash := by
  obtain ⟨other, member, recorded, rfl, again, isAgain, facts⟩ := replaces
  obtain ⟨after, isAfter, same, stays⟩ :=
    broadcastKept_sharedStep taken member
  exact ⟨after, isAfter, stays recorded, same.txHash, again,
    same.pack ▸ isAgain, facts⟩

/-- A record stays one while its transaction is not marked anew. -/
theorem BatchRow.Records.step
    {broadcast : Broadcast}
    {receipt : TransactionReceipt}
    {entry : PackedSubmitIncludedEntry}
    {batch : BatchRow}
    (records : batch.Records config world broadcast receipt entry)
    (taken : sharedStep config world event = some next)
    (marked :
      broadcast.txHash ∈ next.marked ↔ broadcast.txHash ∈ world.marked) :
    batch.Records config next broadcast receipt entry :=
  { records with
    standing := fun unmarked =>
      records.standing fun isMarked => unmarked (marked.mpr isMarked)
    dropped := fun isMarked => records.dropped (marked.mp isMarked)
    replaced := fun txHash isReplaced =>
      (records.replaced txHash isReplaced).step taken }

/-- The record of a transaction that a watcher marks. -/
theorem BatchRow.Records.marked
    {broadcast : Broadcast}
    {receipt : TransactionReceipt}
    {entry : PackedSubmitIncludedEntry}
    {batch : BatchRow}
    {invalidatedAt : Int}
    (records : batch.Records config world broadcast receipt entry)
    (taken : sharedStep config world event = some next)
    (isMarked : broadcast.txHash ∈ next.marked) :
    (batch.markedReorged invalidatedAt).Records config next broadcast
      receipt entry :=
  { chainId := records.chainId
    txHash := records.txHash
    contentTag := records.contentTag
    blobVersionedHash := records.blobVersionedHash
    batchContentHash := records.batchContentHash
    blockNumber := records.blockNumber
    submitted := records.submitted
    snapshot := records.snapshot
    standing := fun unmarked => absurd isMarked unmarked
    dropped := fun _ => ⟨rfl, Option.some_ne_none _⟩
    replaced := fun txHash isReplaced =>
      (records.replaced txHash isReplaced).step taken }

/-- The entries of one pack with one tag have the same messages. -/
theorem messages_of_submittedEntries
    {pack : PackResult}
    {first second : PackedSubmitIncludedEntry}
    (isFirst : first ∈ submittedEntries pack)
    (isSecond : second ∈ submittedEntries pack)
    (sameTag : first.contentTag = second.contentTag) :
    first.messages = second.messages := by
  obtain ⟨firstSegment, -, rfl⟩ := List.mem_map.mp isFirst
  obtain ⟨secondSegment, -, rfl⟩ := List.mem_map.mp isSecond
  dsimp only at sameTag ⊢
  rw [sameTag]

/-- A transaction that is not confirmed yet has no batch rows. -/
theorem unrecorded_of_included
    {broadcast : Broadcast}
    {receipt : TransactionReceipt}
    (found : world.broadcasts.get? broadcast.txHash = some broadcast)
    (included : broadcast.phase = .included receipt) :
    broadcast.txHash ∉ world.recorded := by
  intro isRecorded
  obtain ⟨_, isPhase⟩ :=
    recorded_of_mem (Table.mem_of_get? found) isRecorded
  cases included.symm.trans isPhase

/-- The row written for an entry records it. -/
theorem records_of_written
    {broadcast : Broadcast}
    {receipt : TransactionReceipt}
    {submittedAt : Int}
    {entry : PackedSubmitIncludedEntry}
    {batch : BatchRow}
    (written :
      batch.WrittenFor config.keccak256 config.loop
        (World.outcomeOf config broadcast receipt) submittedAt entry)
    (unmarked : broadcast.txHash ∉ next.marked) :
    batch.Records config next { broadcast with phase := .recorded receipt }
      receipt entry := by
  obtain ⟨snapshot, snapshotted, rfl⟩ := written
  exact {
    chainId := rfl
    txHash := rfl
    contentTag := rfl
    blobVersionedHash := rfl
    batchContentHash := rfl
    blockNumber := rfl
    submitted := rfl
    snapshot := snapshotted
    standing := fun _ => ⟨rfl, rfl, rfl⟩
    dropped := fun isMarked => absurd isMarked unmarked
    replaced := nofun }

/-- An older row records what it did, with its new replacement. -/
theorem records_of_linked
    {broadcast replacing : Broadcast}
    {receipt replacedBy : TransactionReceipt}
    {entry : PackedSubmitIncludedEntry}
    {old batch : BatchRow}
    (records : old.Records config world broadcast receipt entry)
    (taken : sharedStep config world event = some next)
    (marks : next.marks = world.marks)
    (isNext :
      { replacing with phase := .recorded replacedBy } ∈
        next.broadcasts.rows)
    (linked :
      old.LinkedBy (World.outcomeOf config replacing replacedBy) batch) :
    batch.Records config next broadcast receipt entry := by
  have kept : old.Records config next broadcast receipt entry :=
    records.step taken (by rw [World.marked, marks, World.marked])
  cases linked with
  | same =>
      exact kept
  | replaced reorged unreplaced ofOutcome sameTag isNamed ofEntry
      sameHash =>
      obtain ⟨original, ofOld, -, isHash, -⟩ :=
        exists_of_mem_forall₂ (forall₂_entrySnapshot kept.snapshot) isNamed
      have replaces : next.Replaces entry replacing.txHash :=
        ⟨_, isNext, ⟨_, rfl⟩, rfl, _, ofOutcome,
          sameTag.symm.trans kept.contentTag, original, ofOld, _, ofEntry,
          sameHash.symm.trans isHash⟩
      exact { kept with
        standing := fun unmarked => by
          have confirmed := (kept.standing unmarked).1
          rw [reorged] at confirmed
          cases confirmed
        dropped := fun isMarked => ⟨rfl, (kept.dropped isMarked).2⟩
        replaced := by
          intro txHash isReplaced
          cases isReplaced
          exact replaces }

/-- Where a step confirms a transaction. -/
theorem booked_confirmed
    {broadcast : Broadcast}
    {receipt : TransactionReceipt}
    {submittedAt : Int}
    (ledger : world.Ledger config)
    (booked : world.Booked config)
    (taken : sharedStep config world event = some next)
    (found : world.broadcasts.get? broadcast.txHash = some broadcast)
    (included : broadcast.phase = .included receipt)
    (committed :
      confirmIncluded config.keccak256 config.loop world.store
        (World.outcomeOf config broadcast receipt) submittedAt =
          .ok next.store)
    (broadcasts :
      next.broadcasts =
        world.broadcasts.put { broadcast with phase := .recorded receipt })
    (marks : next.marks = world.marks) :
    next.Booked config := by
  have unrecorded := unrecorded_of_included found included
  have unmarked : broadcast.txHash ∉ next.marked := by
    rw [World.marked, marks]
    exact fun isMarked => unrecorded (ledger.marked _ isMarked)
  have isNext :
      { broadcast with phase := .recorded receipt } ∈
        next.broadcasts.rows := by
    rw [broadcasts]
    exact Table.mem_put.mpr (.inl rfl)
  have isOver :=
    confirmedOver_confirmIncluded
      (fun first isFirst second isSecond sameTag =>
        messages_of_submittedEntries isFirst isSecond sameTag)
      (fun key batch isRow ofTx => by
        have isRecorded :=
          ledger.batches key (isRow ▸ Option.some_ne_none _)
        rw [ofTx] at isRecorded
        exact unrecorded isRecorded)
      committed
  constructor
  · intro key batch isRow
    rcases isOver.rows key batch isRow with
      ⟨entry, isEntry, written⟩ | ⟨old, isOld, linked⟩
    · exact ⟨_, isNext, receipt, rfl, entry, isEntry,
        records_of_written written unmarked⟩
    · obtain ⟨other, isOther, otherReceipt, isPhase, entry, isEntry,
          records⟩ := booked.rows key old isOld
      have stays : other ∈ next.broadcasts.rows := by
        rw [broadcasts]
        refine Table.mem_put.mpr (.inr ⟨isOther, fun sameTx => ?_⟩)
        exact unrecorded
          (mem_recorded.mpr ⟨other, isOther, ⟨_, isPhase⟩, sameTx⟩)
      exact ⟨other, stays, otherReceipt, isPhase, entry, isEntry,
        records_of_linked records taken marks isNext linked⟩
  · intro other isOther recorded entry isEntry
    rw [broadcasts] at isOther
    rcases Table.mem_put.mp isOther with rfl | ⟨before, -⟩
    · obtain ⟨batch, isRow, -⟩ :=
        (batch?_confirmEntries committed).1 entry isEntry
      rw [entryKey] at isRow
      exact isRow ▸ Option.some_ne_none _
    · exact isOver.kept _ (booked.all other before recorded entry isEntry)

theorem booked_sharedStep
    (ledger : world.Ledger config)
    (booked : world.Booked config)
    (taken : sharedStep config world event = some next) :
    next.Booked config := by
  cases batchesChange_sharedStep taken with
  | kept batches marks recorded =>
      constructor
      · intro key batch found
        rw [batches] at found
        obtain ⟨broadcast, member, receipt, isPhase, entry, isEntry,
            records⟩ := booked.rows key batch found
        exact ⟨broadcast, (recorded _ ⟨_, isPhase⟩).mpr member, receipt,
          isPhase, entry, isEntry,
          records.step taken (by rw [World.marked, marks, World.marked])⟩
      · intro broadcast member isRecorded entry isEntry
        rw [batches]
        exact booked.all broadcast
          ((recorded _ isRecorded).mp member) isRecorded entry isEntry
  | @marked mark _ batches marks broadcasts =>
      have isNext :
          ∀ txHash,
            txHash ∈ next.marked ↔
              txHash = mark.txHash ∨ txHash ∈ world.marked := by
        intro txHash
        rw [World.marked, marks, List.map_cons, List.mem_cons,
          World.marked]
      constructor
      · intro key batch found
        rw [batches] at found
        obtain ⟨old, isOld, rfl⟩ := Option.map_eq_some_iff.mp found
        obtain ⟨broadcast, member, receipt, isPhase, entry, isEntry,
            records⟩ := booked.rows key old isOld
        refine ⟨broadcast, broadcasts ▸ member, receipt, isPhase, entry,
          isEntry, ?_⟩
        split
        · rename_i ofMark
          have sameTx := (BatchRow.isOf_iff.mp ofMark).2
          rw [records.txHash] at sameTx
          exact records.marked taken ((isNext _).mpr (.inl sameTx))
        · rename_i notMark
          refine records.step taken ((isNext _).trans (or_iff_right ?_))
          intro sameTx
          exact notMark (BatchRow.isOf_iff.mpr
            ⟨records.chainId, records.txHash.trans sameTx⟩)
      · intro broadcast member isRecorded entry isEntry
        rw [batches]
        rw [broadcasts] at member
        simpa using booked.all broadcast member isRecorded entry isEntry
  | confirmed found included committed broadcasts marks =>
      exact booked_confirmed ledger booked taken found included committed
        broadcasts marks

end Records

/-! ## The answers -/

/-- A message of a broadcast, as `/submitted` lists it. -/
def World.listedMessage
    (config : SystemConfig)
    (world : World)
    (broadcast : Broadcast)
    (contentTag : Bytes32)
    (message : DecodedMessage) : SubmittedBatchMessage where
  sender := message.sender
  nonce := message.nonce
  contents := message.contents
  signature := message.signature
  messageHash := message.messageHash
  messageId :=
    if broadcast.txHash ∈ world.marked then none
    else
      computeMessageId config.keccak256 message.sender contentTag
        message.nonce broadcast.blobVersionedHash

/-- The listed batch tells what became of an entry of the broadcast. -/
structure SubmittedBatch.Reports
    (config : SystemConfig)
    (world : World)
    (broadcast : Broadcast)
    (receipt : TransactionReceipt)
    (entry : PackedSubmitIncludedEntry)
    (listed : SubmittedBatch) : Prop where
  txHash : listed.txHash = broadcast.txHash
  contentTag : listed.contentTag = entry.contentTag
  blobVersionedHash :
    listed.blobVersionedHash = broadcast.blobVersionedHash
  batchContentHash :
    listed.batchContentHash = broadcast.blobVersionedHash
  blockNumber : listed.blockNumber = some receipt.blockNumber
  messages :
    listed.messages =
      entry.messages.map
        (world.listedMessage config broadcast entry.contentTag)
  standing :
    broadcast.txHash ∉ world.marked →
    listed.status = .included ∧
      listed.replacedByTxHash = none ∧ listed.invalidatedAt = none
  dropped :
    broadcast.txHash ∈ world.marked →
    listed.invalidatedAt ≠ none ∧
      (listed.status = .reorged ∧ listed.replacedByTxHash = none ∨
        listed.status = .resubmitted ∧
          ∃ txHash,
            listed.replacedByTxHash = some txHash ∧
              world.Replaces entry txHash)

section Answers

variable {config : SystemConfig}
variable {world : World}

/-- The positions of a snapshot count up. -/
theorem positions_entrySnapshot
    {keccak256 : Bytes → Bytes32}
    {contentTag batchContentHash : Bytes32}
    {index : Nat}
    {messages : List DecodedMessage}
    {snapshot : List BatchMessageSnapshotEntry}
    (snapshotted :
      entrySnapshot keccak256 contentTag batchContentHash index messages =
        .ok snapshot) :
    snapshot.map BatchMessageSnapshotEntry.messageIndexWithinBatch =
      List.range' index messages.length := by
  induction messages generalizing index snapshot with
  | nil =>
      cases snapshotted
      rfl
  | cons message rest inductionHypothesis =>
      rw [entrySnapshot] at snapshotted
      split at snapshotted
      · cases snapshotted
      split at snapshotted
      · cases snapshotted
      rename_i later isLater
      cases snapshotted
      rw [List.map_cons, inductionHypothesis isLater, List.length_cons,
        List.range'_succ]

theorem filterMap_of_forall₂
    {α β γ : Type}
    {relation : α → β → Prop}
    {f : α → γ}
    {g : β → Option γ}
    {items : List α}
    {others : List β}
    (pairs : List.Forall₂ relation items others)
    (images :
      ∀ item ∈ items,
        ∀ other, relation item other → g other = some (f item)) :
    others.filterMap g = items.map f := by
  induction pairs with
  | nil =>
      rfl
  | cons isPair _ inductionHypothesis =>
      rw [List.forall_mem_cons] at images
      rw [List.filterMap_cons_some (images.1 _ isPair),
        inductionHypothesis images.2, List.map_cons]

/-- What a snapshot entry is joined with. -/
def Store.joined
    (store : Store)
    (entry : BatchMessageSnapshotEntry) : SnapshotJoinRow where
  row := store.message? entry.key
  messageIdAtConfirm := entry.messageId
  messageIdxWithinBatch := entry.messageIndexWithinBatch

/-- What a submitted row is listed as. -/
def Store.report
    (store : Store)
    (batch : BatchRow) : SubmittedBatch :=
  mapBatch batch (batch.submittedAt.getD 0)
    (batch.messageSnapshot.map store.joined)

theorem readSnapshotMessages_eq
    {store : Store}
    {batch : BatchRow}
    (inRange :
      ∀ entry ∈ batch.messageSnapshot, entry.nonce ≤ MAX_NONCE) :
    readSnapshotMessages store batch =
      .ok (batch.messageSnapshot.map store.joined) := by
  rw [readSnapshotMessages, ExceptLoops.mapM_eq_ok_iff,
    List.forall₂_map_right_iff, List.forall₂_same]
  intro entry member
  rw [Store.getBySenderNonce, if_pos (inRange entry member)]
  rfl

/-- A snapshot is read in its own order. -/
theorem orderBy_joined
    {keccak256 : Bytes → Bytes32}
    {contentTag batchContentHash : Bytes32}
    {messages : List DecodedMessage}
    {snapshot : List BatchMessageSnapshotEntry}
    (snapshotted :
      entrySnapshot keccak256 contentTag batchContentHash 0 messages =
        .ok snapshot)
    (store : Store) :
    Table.orderBy
        (fun joined => [Int.ofNat joined.messageIdxWithinBatch])
        (snapshot.map store.joined) =
      snapshot.map store.joined := by
  apply List.Pairwise.insertionSort_eq
  have increasing :
      (snapshot.map
        BatchMessageSnapshotEntry.messageIndexWithinBatch).Pairwise
          (· < ·) := by
    rw [positions_entrySnapshot snapshotted]
    exact List.pairwise_lt_range'
  rw [List.pairwise_map] at increasing ⊢
  refine increasing.imp fun {first second} below => ?_
  exact le_of_lt (List.cons_lt_cons_iff.mpr (.inl (Int.ofNat_lt.mpr below)))

/-- A row of a snapshot is listed as the message of its slot. -/
theorem mapJoinRow_joined
    {broadcast : Broadcast}
    {contentTag : Bytes32}
    {message : DecodedMessage}
    {named : BatchMessageSnapshotEntry}
    {row : MessageRow}
    {reorged : Bool}
    (found : world.store.message? message.key = some row)
    (holds : row.Holds contentTag message)
    (sameKey : named.key = message.key)
    (isId :
      computeMessageId config.keccak256 message.sender contentTag
        message.nonce broadcast.blobVersionedHash = some named.messageId)
    (isReorged : reorged = true ↔ broadcast.txHash ∈ world.marked) :
    mapJoinRow reorged (world.store.joined named) =
      some (world.listedMessage config broadcast contentTag message) := by
  have keyed := Store.key_of_message? found
  rw [mapJoinRow, Store.joined, sameKey, found, Option.map_some,
    World.listedMessage, isId, holds.contents, holds.signature,
    holds.messageHash, show row.sender = _ from congrArg Prod.fst keyed,
    show row.nonce = _ from congrArg Prod.snd keyed]
  simp only [isReorged]
  rfl

/-- The status of a record follows the marks and its replacement. -/
theorem status_of_records
    {broadcast : Broadcast}
    {receipt : TransactionReceipt}
    {entry : PackedSubmitIncludedEntry}
    {batch : BatchRow}
    (records : batch.Records config world broadcast receipt entry) :
    batchToOldStatus batch =
      if broadcast.txHash ∈ world.marked then
        if batch.replacedByTxHash ≠ none then .resubmitted else .reorged
      else .included := by
  by_cases isMarked : broadcast.txHash ∈ world.marked
  · rw [batchToOldStatus, (records.dropped isMarked).1, if_pos isMarked]
  · rw [batchToOldStatus, (records.standing isMarked).1, if_neg isMarked]

/-- The record of an entry is listed with all its messages. -/
theorem listed_of_records
    {broadcast : Broadcast}
    {receipt : TransactionReceipt}
    {entry : PackedSubmitIncludedEntry}
    {batch : BatchRow}
    (ledger : world.Ledger config)
    (carrying : world.Carrying)
    (member : broadcast ∈ world.broadcasts.rows)
    (isEntry : entry ∈ submittedEntries broadcast.pack)
    (records : batch.Records config world broadcast receipt entry) :
    ListedAs world.store batch (world.store.report batch) ∧
      (world.store.report batch).Reports config world broadcast receipt
        entry := by
  have carries := carrying.broadcasts broadcast member entry isEntry
  have pairs := forall₂_entrySnapshot records.snapshot
  have inRange :
      ∀ named ∈ batch.messageSnapshot, named.nonce ≤ MAX_NONCE := by
    intro named isNamed
    obtain ⟨message, ofEntry, sameKey, -⟩ :=
      exists_of_mem_forall₂ pairs isNamed
    obtain ⟨row, found, -⟩ := carries message ofEntry
    have sameNonce : row.nonce = named.nonce :=
      congrArg Prod.snd
        ((Store.key_of_message? found).trans sameKey.symm)
    exact sameNonce ▸ (ledger.rows _ row found).2
  obtain ⟨submittedAt, isSubmitted⟩ :=
    Option.isSome_iff_exists.mp records.submitted
  have read := @readSnapshotMessages_eq world.store batch inRange
  have status := status_of_records records
  have isReorged :
      decide (batchToOldStatus batch = .reorged ∨
        batchToOldStatus batch = .resubmitted) = true ↔
          broadcast.txHash ∈ world.marked := by
    rw [status, decide_eq_true_eq]
    split
    · rename_i isMarked
      split <;> simp [isMarked]
    · rename_i unmarked
      simp [unmarked]
  refine ⟨⟨submittedAt, _, isSubmitted, read, ?_⟩, ?_⟩
  · rw [Store.report, isSubmitted, Option.getD_some]
  exact {
    txHash := records.txHash
    contentTag := records.contentTag
    blobVersionedHash := records.blobVersionedHash
    batchContentHash := records.batchContentHash
    blockNumber := records.blockNumber
    messages := by
      rw [Store.report, mapBatch, orderBy_joined records.snapshot,
        List.filterMap_map]
      refine filterMap_of_forall₂ pairs ?_
      rintro message isMessage named ⟨sameKey, -, isId⟩
      obtain ⟨row, found, holds⟩ := carries message isMessage
      exact mapJoinRow_joined found holds sameKey isId isReorged
    standing := by
      intro unmarked
      obtain ⟨-, unreplaced, valid⟩ := records.standing unmarked
      refine ⟨?_, unreplaced, valid⟩
      rw [Store.report, mapBatch, status, if_neg unmarked]
    dropped := by
      intro isMarked
      refine ⟨(records.dropped isMarked).2, ?_⟩
      rw [Store.report, mapBatch, status, if_pos isMarked]
      cases isReplaced : batch.replacedByTxHash with
      | none =>
          exact .inl ⟨by simp, rfl⟩
      | some txHash =>
          exact .inr ⟨by simp, txHash, rfl,
            records.replaced txHash isReplaced⟩ }

/-- The query asks for the entry of the broadcast. -/
def SubmittedBatchesQuery.Wants
    (query : SubmittedBatchesQuery)
    (receipt : TransactionReceipt)
    (entry : PackedSubmitIncludedEntry) : Prop :=
  (∀ contentTag, query.contentTag = some contentTag →
    entry.contentTag = contentTag) ∧
    ∀ since, query.sinceBlock = some since →
      since ≤ (receipt.blockNumber : Int)

theorem admits_of_records
    {broadcast : Broadcast}
    {receipt : TransactionReceipt}
    {entry : PackedSubmitIncludedEntry}
    {batch : BatchRow}
    (records : batch.Records config world broadcast receipt entry)
    (query : SubmittedBatchesQuery) :
    (query.rows config.chainId).admits batch = true ↔
      query.Wants receipt entry := by
  simp [BatchesQuery.admits, SubmittedBatchesQuery.rows,
    records.contentTag, records.chainId, records.blockNumber,
    Option.all_eq_true, SubmittedBatchesQuery.Wants]

/-- The answer of `/submitted` is right: without a limit it lists every entry of
every recorded broadcast the query asks for, once, newest block first, and a
limit cuts the same list off. -/
structure AnswersExactly
    (config : SystemConfig)
    (world : World)
    (query : SubmittedBatchesQuery)
    (all : List SubmittedBatch) : Prop where
  limited :
    ∀ limit counts,
      ({ query with limit := limit } : SubmittedBatchesQuery).limit? =
        some counts →
      listSubmittedBatches world.store config.chainId
          { query with limit := limit } =
        .ok (limited counts all)
  sound :
    ∀ listed ∈ all,
      ∃ broadcast ∈ world.broadcasts.rows,
        ∃ receipt,
          broadcast.phase = .recorded receipt ∧
            ∃ entry ∈ submittedEntries broadcast.pack,
              query.Wants receipt entry ∧
                listed.Reports config world broadcast receipt entry
  complete :
    ∀ broadcast ∈ world.broadcasts.rows,
      ∀ receipt,
        broadcast.phase = .recorded receipt →
        ∀ entry ∈ submittedEntries broadcast.pack,
          query.Wants receipt entry →
          ∃ listed ∈ all,
            listed.Reports config world broadcast receipt entry
  once :
    (all.map fun listed => (listed.txHash, listed.contentTag)).Nodup
  newestFirst :
    all.Pairwise fun first second =>
      ∀ block ∈ second.blockNumber, ∃ later ∈ first.blockNumber,
        block ≤ later

def World.SubmittedExact
    (config : SystemConfig)
    (world : World) : Prop :=
  ∀ query, ∃ all, AnswersExactly config world query all

/-- What holds in every state of every run of Poster and Reader's watcher. -/
structure World.Recording
    (config : SystemConfig)
    (world : World) : Prop where
  ledger : world.Ledger config
  carrying : world.Carrying
  booked : world.Booked config

theorem recording_initial
    (config : SystemConfig) :
    World.initial.Recording config where
  ledger := ledger_initial config
  carrying := carrying_initial
  booked := booked_initial config

theorem recording_sharedStep
    {next : World}
    {event : SharedEvent}
    (recording : world.Recording config)
    (taken : sharedStep config world event = some next) :
    next.Recording config where
  ledger := ledger_sharedStep recording.ledger taken
  carrying := carrying_sharedStep recording.carrying taken
  booked := booked_sharedStep recording.ledger recording.booked taken

/-- A report of an entry is one of an entry with its tag and messages. -/
theorem SubmittedBatch.Reports.of_entry
    {broadcast : Broadcast}
    {receipt : TransactionReceipt}
    {entry other : PackedSubmitIncludedEntry}
    {listed : SubmittedBatch}
    (reports : listed.Reports config world broadcast receipt other)
    (sameTag : other.contentTag = entry.contentTag)
    (sameMessages : other.messages = entry.messages) :
    listed.Reports config world broadcast receipt entry :=
  { reports with
    contentTag := reports.contentTag.trans sameTag
    messages := by
      rw [reports.messages, sameTag, sameMessages]
    dropped := by
      intro isMarked
      refine (reports.dropped isMarked).imp_right (Or.imp_right ?_)
      rintro ⟨isResubmitted, txHash, isReplaced, replaces⟩
      refine ⟨isResubmitted, txHash, isReplaced, ?_⟩
      rw [World.Replaces, sameTag, sameMessages] at replaces
      exact replaces }

/-- Every batch row is listed as a report of its broadcast. -/
theorem reports_of_recording
    (recording : world.Recording config)
    {batch : BatchRow}
    (inTable : batch ∈ world.store.batches.rows) :
    ListedAs world.store batch (world.store.report batch) ∧
      ∃ broadcast ∈ world.broadcasts.rows,
        ∃ receipt,
          broadcast.phase = .recorded receipt ∧
            ∃ entry ∈ submittedEntries broadcast.pack,
              batch.Records config world broadcast receipt entry ∧
                (world.store.report batch).Reports config world broadcast
                  receipt entry := by
  obtain ⟨broadcast, member, receipt, isPhase, entry, isEntry,
      records⟩ :=
    recording.booked.rows batch.key batch (Table.mem_rows_iff.mp inTable)
  obtain ⟨isListed, reports⟩ :=
    listed_of_records recording.ledger recording.carrying member isEntry
      records
  exact ⟨isListed, broadcast, member, receipt, isPhase, entry, isEntry,
    records, reports⟩

/-- The rows that an answer is made of. -/
def World.submittedRows
    (config : SystemConfig)
    (world : World)
    (query : SubmittedBatchesQuery) : List BatchRow :=
  (world.store.listBatches (query.rows config.chainId)).filter
    BatchRow.isSubmitted

theorem mem_submittedRows
    (recording : world.Recording config)
    {query : SubmittedBatchesQuery}
    {batch : BatchRow} :
    batch ∈ world.submittedRows config query ↔
      batch ∈ world.store.batches.rows ∧
        (query.rows config.chainId).admits batch = true := by
  rw [World.submittedRows, List.mem_filter, Store.mem_listBatches]
  refine and_iff_left_of_imp fun ⟨inTable, _⟩ => ?_
  obtain ⟨-, _, -, _, -, _, -, records, -⟩ :=
    reports_of_recording recording inTable
  exact records.submitted

/-- The record of a recorded entry is among the rows. -/
theorem exists_row_of_recorded
    (recording : world.Recording config)
    {broadcast : Broadcast}
    {receipt : TransactionReceipt}
    {entry : PackedSubmitIncludedEntry}
    (member : broadcast ∈ world.broadcasts.rows)
    (isPhase : broadcast.phase = .recorded receipt)
    (isEntry : entry ∈ submittedEntries broadcast.pack) :
    ∃ batch ∈ world.store.batches.rows,
      ∃ other ∈ submittedEntries broadcast.pack,
        other.contentTag = entry.contentTag ∧
          batch.Records config world broadcast receipt other ∧
          (world.store.report batch).Reports config world broadcast
            receipt entry := by
  obtain ⟨batch, found⟩ :=
    Option.ne_none_iff_exists'.mp
      (recording.booked.all broadcast member ⟨receipt, isPhase⟩ entry
        isEntry)
  have inTable := Table.mem_of_get? found
  have keyed := Store.key_of_batch? found
  obtain ⟨-, owner, isOwner, ownReceipt, ownPhase, other, isOther,
      records, reports⟩ := reports_of_recording recording inTable
  have sameTx : owner.txHash = broadcast.txHash :=
    records.txHash.symm.trans (congrArg (fun key => key.2.1) keyed)
  cases Table.eq_of_key_eq isOwner member sameTx
  cases ownPhase.symm.trans isPhase
  have sameTag : other.contentTag = entry.contentTag :=
    records.contentTag.symm.trans (congrArg (fun key => key.2.2) keyed)
  exact ⟨batch, inTable, other, isOther, sameTag, records,
    reports.of_entry sameTag
      (messages_of_submittedEntries isOther isEntry sameTag)⟩

/-- The rows are of distinct transactions or tags. -/
theorem nodup_submittedRows
    (recording : world.Recording config)
    (query : SubmittedBatchesQuery) :
    ((world.submittedRows config query).map fun batch =>
      (batch.txHash, batch.contentTag)).Nodup := by
  have keys :
      ((world.submittedRows config query).map BatchRow.key).Nodup := by
    refine List.Nodup.sublist (List.filter_sublist.map _) ?_
    rw [Store.listBatches,
      ((Table.orderBy_perm _ _).map BatchRow.key).nodup_iff]
    exact world.store.batches.keysNodup.sublist
      (List.filter_sublist.map BatchRow.key)
  have sameKeys :
      (world.submittedRows config query).map BatchRow.key =
        ((world.submittedRows config query).map fun batch =>
          (batch.txHash, batch.contentTag)).map
            fun pair => (config.chainId, pair) := by
    rw [List.map_map]
    refine List.map_congr_left fun batch member => ?_
    obtain ⟨-, _, -, _, -, _, -, records, -⟩ :=
      reports_of_recording recording
        ((mem_submittedRows recording).mp member).1
    exact Prod.ext records.chainId rfl
  rw [sameKeys] at keys
  exact List.Nodup.of_map _ keys

/-- The rows stand newest block first. -/
theorem newestFirst_submittedRows
    (recording : world.Recording config)
    (query : SubmittedBatchesQuery) :
    (world.submittedRows config query).Pairwise fun first second =>
      ∀ block ∈ second.blockNumber, ∃ later ∈ first.blockNumber,
        block ≤ later := by
  have ordered :=
    (Table.orderBy_ordered
      (fun row : BatchRow =>
        Table.descNullsLast (row.blockNumber.map Int.ofNat) ++
          Table.descNullsLast (row.txIndex.map Int.ofNat) ++
          Table.descNullsLast row.submittedAt)
      (world.store.batches.select
        (query.rows config.chainId).admits)).sublist
          (List.filter_sublist (p := BatchRow.isSubmitted))
  refine ordered.imp_of_mem fun {first second} isFirst isSecond before => ?_
  have located :
      ∀ batch ∈ world.submittedRows config query,
        ∃ block, batch.blockNumber = some block := by
    intro batch member
    obtain ⟨-, _, -, _, -, _, -, records, -⟩ :=
      reports_of_recording recording
        ((mem_submittedRows recording).mp member).1
    exact ⟨_, records.blockNumber⟩
  obtain ⟨later, isLater⟩ := located first isFirst
  intro block isBlock
  refine ⟨later, isLater, Nat.le_of_not_lt fun less => ?_⟩
  rw [isLater, show second.blockNumber = some block from isBlock] at before
  refine not_lt.mpr before ?_
  exact List.cons_lt_cons_iff.mpr (.inr ⟨rfl,
    List.cons_lt_cons_iff.mpr (.inl (neg_lt_neg (Int.ofNat_lt.mpr less)))⟩)

theorem submittedExact_of_recording
    (recording : world.Recording config) :
    world.SubmittedExact config := by
  intro query
  refine ⟨(world.submittedRows config query).map world.store.report, ?_⟩
  constructor
  · intro limit counts isCount
    exact listSubmittedBatches_eq isCount fun batch inTable _ _ =>
      (reports_of_recording recording inTable).1
  · intro listed member
    obtain ⟨batch, isRow, rfl⟩ := List.mem_map.mp member
    obtain ⟨inTable, admitted⟩ := (mem_submittedRows recording).mp isRow
    obtain ⟨-, broadcast, isBroadcast, receipt, isPhase, entry, isEntry,
        records, reports⟩ := reports_of_recording recording inTable
    exact ⟨broadcast, isBroadcast, receipt, isPhase, entry, isEntry,
      (admits_of_records records query).mp admitted, reports⟩
  · intro broadcast member receipt isPhase entry isEntry wanted
    obtain ⟨batch, inTable, other, -, sameTag, records, reports⟩ :=
      exists_row_of_recorded recording member isPhase isEntry
    have wantsOther : query.Wants receipt other := by
      rw [SubmittedBatchesQuery.Wants, sameTag]
      exact wanted
    refine ⟨_, List.mem_map_of_mem ?_, reports⟩
    exact (mem_submittedRows recording).mpr
      ⟨inTable, (admits_of_records records query).mpr wantsOther⟩
  · rw [List.map_map]
    exact nodup_submittedRows recording query
  · rw [List.pairwise_map]
    exact newestFirst_submittedRows recording query

/-- Whatever watchers mark and later transactions replace, in every state of
every run `/submitted` lists exactly the recorded broadcasts, each with the
messages it carried. -/
theorem submitted_exact
    (config : SystemConfig)
    (events : List SharedEvent) :
    Runs.AllStates (sharedStep config) (World.SubmittedExact config)
      World.initial events := by
  apply Runs.AllStates.mono fun world =>
    @submittedExact_of_recording config world
  exact Runs.allStates_of_invariant
    (fun recording _ taken => recording_sharedStep recording taken)
    (recording_initial config)
    (@Runs.AllSteps.of_forall _ _ _ (fun _ _ => True)
      (fun _ _ => trivial) _ _)

/-- The messages of two tags, re-enqueued and carried again by transaction 2. -/
example :
    ((Runs.exec? (sharedStep sampleConfig) World.initial
      (droppedPack (wholeTick ++
        [.tickStart 9, .tickSend 0 (.accepted 2),
          .tickReceipt 2 (.ok
            { status := true, blockNumber := 120, transactionIndex := 0 }),
          .tickConfirm 2 10].map .poster))).bind fun world =>
      (listSubmittedBatches world.store sampleConfig.chainId
        { contentTag := none, sinceBlock := none, limit := none }).toOption.map
          fun batches => batches.map fun batch =>
            (batch.txHash, batch.status)) =
      some [(2, .included), (2, .included), (1, .resubmitted),
        (1, .resubmitted)] := by
  rw [sharedStep_sampleConfig]
  decide +kernel

end Answers

end Bam
