import Bam.Lib.Runs
import Bam.Reader.ProcessBatch

namespace Bam

/-!
# Confirmed rows and confirmed batches

One message row stands for every batch the message was seen in.  This module
says when a slot is confirmed exactly if some confirmed batch records a message
for it, over all runs of `processBatch` and `markReorged`.
-/

/-- A write a Reader makes to the store. -/
inductive ReaderCall where
  | processBatch (opts : ProcessBatchOptions)
  | markReorged (chainId : Nat) (txHash : Bytes32) (invalidatedAt : Int)

/-- One call; a call that throws leaves the store as it was. -/
def readerStep
    (libraries : ReaderLibraries)
    (store : Store) : ReaderCall → Option Store
  | .processBatch opts =>
      match (processBatch libraries opts store emptyCounters).2 with
      | .ok (next, _) => some next
      | .error _ => some store
  | .markReorged chainId txHash invalidatedAt =>
      match store.markReorged chainId txHash invalidatedAt with
      | .ok next => some next
      | .error _ => some store

/-- Some confirmed batch records a verified message for the slot. -/
def Store.RecordedSlot
    (store : Store)
    (key : MessageKey) : Prop :=
  ∃ batch ∈ store.batches.rows,
    batch.status = .confirmed ∧
    ∃ entry ∈ batch.messageSnapshot, entry.key = key

/-- The row of a slot holds the data of a message its batch records. -/
structure MessageRow.Carries
    (row : MessageRow)
    (batch : BatchRow)
    (entry : BatchMessageSnapshotEntry) : Prop where
  key : row.key = entry.key
  messageId : row.messageId = some entry.messageId
  messageHash : row.messageHash = entry.messageHash
  index :
    row.messageIndexWithinBatch = some entry.messageIndexWithinBatch
  batchRef : row.batchRef = some batch.txHash
  chainId : row.chainId = some batch.chainId
  contentTag : row.contentTag = batch.contentTag

/-- Every row holds contents that hash to its message hash. -/
def Store.RowsHashed
    (keccak256 : Bytes → Bytes32)
    (store : Store) : Prop :=
  ∀ key row, store.message? key = some row →
    computeMessageHash keccak256 row.sender row.contentTag row.nonce
      row.contents = some row.messageHash

/-- A slot is confirmed exactly if a confirmed batch records it, and its row
then carries a recorded message. -/
structure Store.Converged
    (keccak256 : Bytes → Bytes32)
    (store : Store) : Prop where
  exactly : ∀ key, store.ConfirmedSlot key ↔ store.RecordedSlot key
  carries :
    ∀ key row, store.message? key = some row →
      row.status = .confirmed →
      ∃ batch ∈ store.batches.rows,
        batch.status = .confirmed ∧
        ∃ entry ∈ batch.messageSnapshot, row.Carries batch entry
  hashed : store.RowsHashed keccak256

/-- No message of the transaction is recorded in another confirmed batch. -/
def Store.HoldsLastRecords
    (store : Store)
    (chainId : Nat)
    (txHash : Bytes32) : Prop :=
  ∀ key row, store.message? key = some row →
    row.isConfirmedIn chainId txHash = true →
    ∀ batch ∈ store.batches.rows,
      batch.status = .confirmed →
      batch.isOf chainId txHash = false →
      ∀ entry ∈ batch.messageSnapshot, entry.key ≠ key

/-- Every verified message finds its slot free, confirmed, or held by a
message the batch verifies too. -/
def Store.SlotsFit
    (store : Store)
    (rows : List MessageRow) : Prop :=
  ∀ row ∈ rows, ∀ existing,
    store.message? row.key = some existing →
    existing.status = .confirmed ∨
      ∃ other ∈ rows,
        other.key = row.key ∧
        other.messageHash = existing.messageHash

/-- The batch records every confirmed message that is attached to it. -/
def Store.RecordsAttached
    (store : Store)
    (batch : BatchRow) : Prop :=
  ∀ key row, store.message? key = some row →
    row.status = .confirmed →
    row.batchRef = some batch.txHash →
    row.chainId = some batch.chainId →
    row.contentTag = batch.contentTag →
    ∃ entry ∈ batch.messageSnapshot, row.Carries batch entry

/-- The messages recorded under a batch key are confirmed. -/
def Store.RecordsConfirmed
    (store : Store)
    (key : BatchKey) : Prop :=
  ∀ batch, store.batch? key = some batch →
    ∀ entry ∈ batch.messageSnapshot, store.ConfirmedSlot entry.key

/-- The condition on a call in the state before it. -/
def readerAllows
    (libraries : ReaderLibraries)
    (store : Store) : ReaderCall → Prop
  | .markReorged chainId txHash _ =>
      store.HoldsLastRecords chainId txHash
  | .processBatch opts =>
      match readSegment libraries opts with
      | none => True
      | some [] => store.RecordsConfirmed opts.baseBatch.key
      | some (first :: rest) =>
          store.SlotsFit (opts.messageRows libraries (first :: rest)) ∧
            store.RecordsAttached
              (opts.batchRow libraries (first :: rest))

/-- Whether a row carries a batch's entry depends on the batch's key only. -/
theorem MessageRow.Carries.of_key
    {row : MessageRow}
    {first second : BatchRow}
    {entry : BatchMessageSnapshotEntry}
    (carries : row.Carries first entry)
    (sameKey : first.key = second.key) :
    row.Carries second entry := by
  simp only [BatchRow.key, Prod.mk.injEq] at sameKey
  exact {
    key := carries.key
    messageId := carries.messageId
    messageHash := carries.messageHash
    index := carries.index
    batchRef := carries.batchRef.trans (congrArg some sameKey.2.1)
    chainId := carries.chainId.trans (congrArg some sameKey.1)
    contentTag := carries.contentTag.trans sameKey.2.2 }

section Segment

variable {libraries : ReaderLibraries}
variable {opts : ProcessBatchOptions}
variable {verified : List VerifiedEntry}

/-- The rows of a segment are the rows of its verified messages. -/
theorem mem_messageRows
    {row : MessageRow} :
    row ∈ opts.messageRows libraries verified ↔
      ∃ entry ∈ verified,
        entry.toMessageRow libraries opts = some row :=
  List.mem_filterMap

/-- Every row of a segment carries an entry of the segment's snapshot. -/
theorem carries_of_mem_messageRows
    {row : MessageRow}
    (member : row ∈ opts.messageRows libraries verified) :
    ∃ entry ∈ (opts.batchRow libraries verified).messageSnapshot,
      row.Carries (opts.batchRow libraries verified) entry := by
  obtain ⟨verifiedEntry, isVerified, isRow⟩ := mem_messageRows.mp member
  rw [VerifiedEntry.toMessageRow] at isRow
  obtain ⟨messageId, identified, rfl⟩ := Option.map_eq_some_iff.mp isRow
  refine ⟨verifiedEntry.snapshotEntry messageId,
    List.mem_filterMap.mpr ⟨verifiedEntry, isVerified, ?_⟩, ?_⟩
  · rw [VerifiedEntry.toSnapshotEntry, identified]
    rfl
  · constructor <;> rfl

/-- Every entry of a segment's snapshot has a row of the segment. -/
theorem row_of_mem_snapshot
    {entry : BatchMessageSnapshotEntry}
    (member :
      entry ∈ (opts.batchRow libraries verified).messageSnapshot) :
    ∃ row ∈ opts.messageRows libraries verified,
      row.key = entry.key := by
  obtain ⟨verifiedEntry, isVerified, isEntry⟩ :=
    List.mem_filterMap.mp member
  rw [VerifiedEntry.toSnapshotEntry] at isEntry
  obtain ⟨messageId, identified, rfl⟩ :=
    Option.map_eq_some_iff.mp isEntry
  refine ⟨verifiedEntry.messageRow opts messageId,
    mem_messageRows.mpr ⟨verifiedEntry, isVerified, ?_⟩, ?_⟩
  · rw [VerifiedEntry.toMessageRow, identified]
    rfl
  · rfl

/-- What a row of a segment of valid messages is. -/
theorem mem_messageRows_valid
    (valid : ∀ entry ∈ verified, entry.Valid libraries opts)
    {row : MessageRow}
    (member : row ∈ opts.messageRows libraries verified) :
    row.status = .confirmed ∧
      row.nonce ≤ MAX_NONCE ∧
      computeMessageHash libraries.crypto.keccak256 row.sender
        row.contentTag row.nonce row.contents =
          some row.messageHash := by
  obtain ⟨entry, isVerified, isRow⟩ := mem_messageRows.mp member
  have entryValid := valid entry isVerified
  rw [VerifiedEntry.toMessageRow] at isRow
  obtain ⟨messageId, identified, rfl⟩ := Option.map_eq_some_iff.mp isRow
  exact ⟨rfl, entryValid.nonce, entryValid.hash⟩

/-- A segment with a verified message has a snapshot that is not empty. -/
theorem snapshot_ne_nil
    (valid : ∀ entry ∈ verified, entry.Valid libraries opts)
    (nonempty : verified ≠ []) :
    (opts.batchRow libraries verified).messageSnapshot ≠ [] := by
  obtain ⟨first, rest, rfl⟩ := List.exists_cons_of_ne_nil nonempty
  obtain ⟨messageId, identified⟩ :=
    (valid first List.mem_cons_self).messageId
  rw [ProcessBatchOptions.batchRow]
  simp [VerifiedEntry.toSnapshotEntry, identified]

end Segment

/-- The store after a `processBatch` call. -/
theorem readerStep_processBatch
    {libraries : ReaderLibraries}
    {opts : ProcessBatchOptions}
    {store next : Store}
    (taken :
      readerStep libraries store (.processBatch opts) = some next) :
    match readSegment libraries opts with
    | none => next = store
    | some verified =>
        (∀ entry ∈ verified, entry.Valid libraries opts) ∧
          next = store.recordBatch (opts.batchRow libraries verified)
            (opts.messageRows libraries verified) := by
  have stored :=
    processBatch_store libraries opts store emptyCounters
  unfold readerStep at taken
  split
  · rename_i unwritten
    rw [unwritten] at stored
    dsimp only at stored taken
    split at taken
    · rename_i after result returned
      cases taken
      exact stored next result returned
    · cases taken
      rfl
  · rename_i verified isRead
    rw [isRead] at stored
    dsimp only at stored taken
    obtain ⟨valid, result, returned⟩ := stored
    rw [returned] at taken
    cases taken
    exact ⟨valid, rfl⟩

/-- Hashed rows stay hashed when hashed rows are recorded. -/
theorem rowsHashed_recordBatch
    {keccak256 : Bytes → Bytes32}
    {store : Store}
    {batch : BatchRow}
    {rows : List MessageRow}
    (hashed : store.RowsHashed keccak256)
    (rowsHashed :
      ∀ row ∈ rows,
        computeMessageHash keccak256 row.sender row.contentTag
          row.nonce row.contents = some row.messageHash) :
    (store.recordBatch batch rows).RowsHashed keccak256 := by
  intro key row found
  rcases store.message?_recordBatch batch rows key with
    same | ⟨other, member, -, isOther, -⟩
  · exact hashed key row (same.symm.trans found)
  · have isRow : row = other :=
      Option.some.inj (found.symm.trans isOther)
    exact isRow ▸ rowsHashed other member

/-- Marking a transaction keeps the store converged exactly if no other
confirmed batch records one of its messages. -/
theorem converged_markReorged
    {keccak256 : Bytes → Bytes32}
    {store next : Store}
    {chainId : Nat}
    {txHash : Bytes32}
    {invalidatedAt : Int}
    (good : store.Converged keccak256)
    (marked :
      store.markReorged chainId txHash invalidatedAt = .ok next) :
    next.Converged keccak256 ↔ store.HoldsLastRecords chainId txHash := by
  have slotAfter := Store.message?_markReorged marked
  have keptBatch :
      ∀ batch ∈ store.batches.rows,
        batch.isOf chainId txHash = false →
        batch ∈ next.batches.rows := by
    intro batch member otherTx
    exact (Store.mem_batches_markReorged marked).mpr
      ⟨batch, member, by simp [otherTx]⟩
  constructor
  · intro nextGood key row found inTx batch member confirmed otherTx
      entry recorded ofSlot
    have slotRecorded : next.RecordedSlot key :=
      ⟨batch, keptBatch batch member otherTx, confirmed, entry,
        recorded, ofSlot⟩
    obtain ⟨after, isAfter, afterConfirmed⟩ :=
      (nextGood.exactly key).mpr slotRecorded
    rw [slotAfter, found, Option.map_some, if_pos inTx,
      Option.some.injEq] at isAfter
    subst isAfter
    cases afterConfirmed
  · intro lastRecords
    have keptRow :
        ∀ key row, next.message? key = some row →
          row.status = .confirmed →
          store.message? key = some row ∧
            row.isConfirmedIn chainId txHash = false := by
      intro key row found confirmed
      rw [slotAfter, Option.map_eq_some_iff] at found
      obtain ⟨old, isOld, rfl⟩ := found
      by_cases inTx : old.isConfirmedIn chainId txHash = true
      · rw [if_pos inTx] at confirmed
        cases confirmed
      · rw [if_neg inTx]
        exact ⟨isOld, Bool.eq_false_iff.mpr inTx⟩
    have carried :
        ∀ key row, next.message? key = some row →
          row.status = .confirmed →
          ∃ batch ∈ next.batches.rows,
            batch.status = .confirmed ∧
            ∃ entry ∈ batch.messageSnapshot,
              row.Carries batch entry := by
      intro key row found confirmed
      obtain ⟨isOld, notInTx⟩ := keptRow key row found confirmed
      obtain ⟨batch, member, batchConfirmed, entry, recorded, carries⟩ :=
        good.carries key row isOld confirmed
      have otherTx : batch.isOf chainId txHash = false := by
        rw [Bool.eq_false_iff]
        intro ofTx
        obtain ⟨sameChain, sameTx⟩ := BatchRow.isOf_iff.mp ofTx
        have inTx : row.isConfirmedIn chainId txHash = true :=
          MessageRow.isConfirmedIn_iff.mpr
            ⟨sameTx ▸ carries.batchRef, sameChain ▸ carries.chainId,
              confirmed⟩
        rw [inTx] at notInTx
        cases notInTx
      exact ⟨batch, keptBatch batch member otherTx, batchConfirmed,
        entry, recorded, carries⟩
    refine ⟨?_, carried, ?_⟩
    · intro key
      constructor
      · rintro ⟨row, found, confirmed⟩
        obtain ⟨batch, member, batchConfirmed, entry, recorded,
          carries⟩ := carried key row found confirmed
        have ofSlot : entry.key = key :=
          carries.key.symm.trans (Store.key_of_message? found)
        exact ⟨batch, member, batchConfirmed, entry, recorded, ofSlot⟩
      · rintro ⟨batch, member, batchConfirmed, entry, recorded, ofSlot⟩
        obtain ⟨old, isOld, rfl⟩ :=
          (Store.mem_batches_markReorged marked).mp member
        by_cases ofTx : old.isOf chainId txHash = true
        · rw [if_pos ofTx] at batchConfirmed
          cases batchConfirmed
        · rw [if_neg ofTx] at batchConfirmed recorded
          obtain ⟨row, found, confirmed⟩ :=
            (good.exactly key).mpr
              ⟨old, isOld, batchConfirmed, entry, recorded, ofSlot⟩
          have notInTx : row.isConfirmedIn chainId txHash = false := by
            rw [Bool.eq_false_iff]
            intro inTx
            exact lastRecords key row found inTx old isOld
              batchConfirmed (Bool.eq_false_iff.mpr ofTx) entry
              recorded ofSlot
          refine ⟨row, ?_, confirmed⟩
          rw [slotAfter, found, Option.map_some, notInTx]
          rfl
    · intro key row found
      rw [slotAfter, Option.map_eq_some_iff] at found
      obtain ⟨old, isOld, rfl⟩ := found
      have oldHashed := good.hashed key old isOld
      by_cases inTx : old.isConfirmedIn chainId txHash = true
      · rw [if_pos inTx]
        exact oldHashed
      · rw [if_neg inTx]
        exact oldHashed

/-- A converged store after a batch with status `confirmed` is recorded, once
every confirmed row is known to carry a recorded message and every recorded
slot is known to be confirmed. -/
theorem converged_of_carried
    {keccak256 : Bytes → Bytes32}
    {store : Store}
    (carried :
      ∀ key row, store.message? key = some row →
        row.status = .confirmed →
        ∃ batch ∈ store.batches.rows,
          batch.status = .confirmed ∧
          ∃ entry ∈ batch.messageSnapshot, row.Carries batch entry)
    (recorded : ∀ key, store.RecordedSlot key → store.ConfirmedSlot key)
    (hashed : store.RowsHashed keccak256) :
    store.Converged keccak256 := by
  refine ⟨fun key => ⟨?_, recorded key⟩, carried, hashed⟩
  rintro ⟨row, found, confirmed⟩
  obtain ⟨batch, member, batchConfirmed, entry, isRecorded, carries⟩ :=
    carried key row found confirmed
  exact ⟨batch, member, batchConfirmed, entry, isRecorded,
    carries.key.symm.trans (Store.key_of_message? found)⟩

/-- The batch row recorded last is confirmed and carries the entries of its
snapshot. -/
theorem recorded_of_merged
    {store : Store}
    {batch : BatchRow}
    {rows : List MessageRow}
    {key : MessageKey}
    {entry : BatchMessageSnapshotEntry}
    (confirmed : batch.status = .confirmed)
    (recorded : entry ∈ (store.merged batch).messageSnapshot)
    (ofSlot : entry.key = key) :
    (store.recordBatch batch rows).RecordedSlot key :=
  ⟨store.merged batch, Store.mem_batches_recordBatch.mpr (.inl rfl),
    (store.status_merged batch).trans confirmed, entry, recorded,
    ofSlot⟩

/-- A batch of another key survives the recording of a batch. -/
theorem mem_recordBatch_of_ne
    {store : Store}
    {batch other : BatchRow}
    {rows : List MessageRow}
    (member : other ∈ store.batches.rows)
    (otherKey : other.key ≠ batch.key) :
    other ∈ (store.recordBatch batch rows).batches.rows :=
  Store.mem_batches_recordBatch.mpr (.inr ⟨member, otherKey⟩)

/-- Recording a read segment keeps the store converged exactly if its messages
fit their slots and it records what is attached to it. -/
theorem converged_recordBatch
    {libraries : ReaderLibraries}
    {opts : ProcessBatchOptions}
    {verified : List VerifiedEntry}
    {store : Store}
    (good : store.Converged libraries.crypto.keccak256)
    (valid : ∀ entry ∈ verified, entry.Valid libraries opts)
    (nonempty : verified ≠ []) :
    (store.recordBatch (opts.batchRow libraries verified)
        (opts.messageRows libraries verified)).Converged
          libraries.crypto.keccak256 ↔
      store.SlotsFit (opts.messageRows libraries verified) ∧
        store.RecordsAttached (opts.batchRow libraries verified) := by
  have rowFacts :
      ∀ row ∈ opts.messageRows libraries verified,
        row.status = .confirmed ∧ row.nonce ≤ MAX_NONCE ∧ _ :=
    fun row member => mem_messageRows_valid valid member
  have snapshotted :
      (store.merged (opts.batchRow libraries verified)).messageSnapshot =
        (opts.batchRow libraries verified).messageSnapshot :=
    store.messageSnapshot_merged (snapshot_ne_nil valid nonempty)
  constructor
  · intro nextGood
    constructor
    · intro row member existing found
      obtain ⟨entry, recorded, carries⟩ :=
        carries_of_mem_messageRows member
      obtain ⟨after, isAfter, afterConfirmed⟩ :=
        (nextGood.exactly row.key).mpr
          (recorded_of_merged rfl (snapshotted ▸ recorded)
            carries.key.symm)
      rcases store.message?_recordBatch _ _ row.key with
        same | ⟨other, otherMember, ofSlot, -, replaceable⟩
      · have isExisting : after = existing :=
          Option.some.inj (isAfter.symm.trans (same.trans found))
        exact .inl (isExisting ▸ afterConfirmed)
      · exact .inr ⟨other, otherMember, ofSlot,
          (replaceable existing found).1.symm⟩
    · intro key row found confirmed ofTx ofChain ofTag
      have kept :=
        Store.message?_recordBatch_of_confirmed
          (opts.batchRow libraries verified)
          (opts.messageRows libraries verified) found confirmed
      obtain ⟨batch, member, -, entry, recorded, carries⟩ :=
        nextGood.carries key row kept confirmed
      have sameKey :
          batch.key = (opts.batchRow libraries verified).key := by
        simp only [BatchRow.key, Prod.mk.injEq]
        exact
          ⟨Option.some.inj (carries.chainId.symm.trans ofChain),
            Option.some.inj (carries.batchRef.symm.trans ofTx),
            carries.contentTag.symm.trans ofTag⟩
      rcases Store.mem_batches_recordBatch.mp member with
        isMerged | ⟨-, otherKey⟩
      · rw [isMerged, snapshotted] at recorded
        exact ⟨entry, recorded, carries.of_key sameKey⟩
      · exact absurd sameKey otherKey
  · rintro ⟨slotsFit, recordsAttached⟩
    apply converged_of_carried
    · intro key row found confirmed
      rcases store.message?_recordBatch _ _ key with
        same | ⟨other, otherMember, -, isOther, -⟩
      · have before := same.symm.trans found
        obtain ⟨batch, member, batchConfirmed, entry, recorded,
          carries⟩ := good.carries key row before confirmed
        by_cases sameKey :
            batch.key = (opts.batchRow libraries verified).key
        · have attached := carries.of_key sameKey
          obtain ⟨newEntry, newRecorded, newCarries⟩ :=
            recordsAttached key row before confirmed
              attached.batchRef attached.chainId attached.contentTag
          exact ⟨store.merged (opts.batchRow libraries verified),
            Store.mem_batches_recordBatch.mpr (.inl rfl),
            store.status_merged _, newEntry,
            snapshotted ▸ newRecorded,
            newCarries.of_key (store.key_merged _).symm⟩
        · exact ⟨batch, mem_recordBatch_of_ne member sameKey,
            batchConfirmed, entry, recorded, carries⟩
      · have isRow : row = other :=
          Option.some.inj (found.symm.trans isOther)
        subst isRow
        obtain ⟨entry, recorded, carries⟩ :=
          carries_of_mem_messageRows otherMember
        exact ⟨store.merged (opts.batchRow libraries verified),
          Store.mem_batches_recordBatch.mpr (.inl rfl),
          store.status_merged _, entry, snapshotted ▸ recorded,
          carries.of_key (store.key_merged _).symm⟩
    · rintro key ⟨batch, member, batchConfirmed, entry, recorded, rfl⟩
      rcases Store.mem_batches_recordBatch.mp member with
        rfl | ⟨isOld, -⟩
      · rw [snapshotted] at recorded
        obtain ⟨row, rowMember, sameSlot⟩ :=
          row_of_mem_snapshot recorded
        rw [← sameSlot]
        have confirms :
            ∀ other ∈ opts.messageRows libraries verified,
              other.key = row.key →
              (∀ existing, store.message? other.key = some existing →
                existing.status = .confirmed ∨
                  existing.messageHash = other.messageHash) →
              (store.recordBatch (opts.batchRow libraries verified)
                (opts.messageRows libraries verified)).ConfirmedSlot
                  row.key := by
          intro other otherMember ofSlot fits
          rw [← ofSlot]
          apply Store.confirmedSlot_foldl_observe
            (fun each isRow => (rowFacts each isRow).2.1)
            (fun each isRow => (rowFacts each isRow).1)
            otherMember
          rw [Store.message?_upsertBatch]
          exact fits
        cases found : store.message? row.key with
        | none =>
            apply confirms row rowMember rfl
            simp [found]
        | some existing =>
            rcases slotsFit row rowMember existing found with
              confirmed | ⟨other, otherMember, ofSlot, sameHash⟩
            · exact ⟨existing,
                Store.message?_recordBatch_of_confirmed _ _ found
                  confirmed, confirmed⟩
            · apply confirms other otherMember ofSlot
              intro held isHeld
              rw [ofSlot, found, Option.some.injEq] at isHeld
              exact .inr (isHeld ▸ sameHash.symm)
      · obtain ⟨row, found, confirmed⟩ :=
          (good.exactly entry.key).mpr
            ⟨batch, isOld, batchConfirmed, entry, recorded, rfl⟩
        exact ⟨row,
          Store.message?_recordBatch_of_confirmed _ _ found confirmed,
          confirmed⟩
    · exact rowsHashed_recordBatch good.hashed
        fun row member => (rowFacts row member).2.2

/-- Recording a segment that was not read keeps the store converged exactly if
what is already recorded under its key is confirmed. -/
theorem converged_unread
    {libraries : ReaderLibraries}
    {opts : ProcessBatchOptions}
    {store : Store}
    (good : store.Converged libraries.crypto.keccak256) :
    (store.recordBatch (opts.batchRow libraries [])
        (opts.messageRows libraries [])).Converged
          libraries.crypto.keccak256 ↔
      store.RecordsConfirmed opts.baseBatch.key := by
  have sameRow :
      ∀ key,
        (store.recordBatch (opts.batchRow libraries [])
            (opts.messageRows libraries [])).message? key =
          store.message? key :=
    fun key => store.message?_upsertBatch _ key
  have snapshotted :=
    @Store.messageSnapshot_merged_nil store
      (opts.batchRow libraries []) rfl
  constructor
  · intro nextGood batch found entry recorded
    have keptSnapshot :
        (store.merged (opts.batchRow libraries [])).messageSnapshot =
          batch.messageSnapshot := by
      have isStored :
          store.batch? (opts.batchRow libraries []).key = some batch :=
        found
      rw [snapshotted, isStored]
    obtain ⟨row, isRow, confirmed⟩ :=
      (nextGood.exactly entry.key).mpr
        (recorded_of_merged rfl (keptSnapshot ▸ recorded) rfl)
    exact ⟨row, (sameRow entry.key).symm.trans isRow, confirmed⟩
  · intro recordsConfirmed
    apply converged_of_carried
    · intro key row found confirmed
      rw [sameRow] at found
      obtain ⟨batch, member, batchConfirmed, entry, recorded, carries⟩ :=
        good.carries key row found confirmed
      by_cases sameKey : batch.key = (opts.batchRow libraries []).key
      · have isStored :
            store.batch? (opts.batchRow libraries []).key =
              some batch :=
          sameKey ▸ Table.mem_rows_iff.mp member
        rw [isStored] at snapshotted
        exact ⟨store.merged (opts.batchRow libraries []),
          Store.mem_batches_recordBatch.mpr (.inl rfl),
          store.status_merged _, entry, snapshotted ▸ recorded,
          carries.of_key (sameKey.trans (store.key_merged _).symm)⟩
      · exact ⟨batch, mem_recordBatch_of_ne member sameKey,
          batchConfirmed, entry, recorded, carries⟩
    · rintro key ⟨batch, member, batchConfirmed, entry, recorded, rfl⟩
      rcases Store.mem_batches_recordBatch.mp member with
        rfl | ⟨isOld, -⟩
      · rw [snapshotted] at recorded
        cases stored :
            store.batch? (opts.batchRow libraries []).key with
        | none =>
            rw [stored] at recorded
            cases recorded
        | some existing =>
            rw [stored] at recorded
            obtain ⟨row, found, confirmed⟩ :=
              recordsConfirmed existing stored entry recorded
            exact ⟨row, (sameRow entry.key).trans found, confirmed⟩
      · obtain ⟨row, found, confirmed⟩ :=
          (good.exactly entry.key).mpr
            ⟨batch, isOld, batchConfirmed, entry, recorded, rfl⟩
        exact ⟨row, (sameRow entry.key).trans found, confirmed⟩
    · exact rowsHashed_recordBatch good.hashed
        fun row member => by cases member

/-- One call keeps the store converged exactly if it is allowed. -/
theorem converged_readerStep
    {libraries : ReaderLibraries}
    {store next : Store}
    {call : ReaderCall}
    (good : store.Converged libraries.crypto.keccak256)
    (taken : readerStep libraries store call = some next) :
    next.Converged libraries.crypto.keccak256 ↔
      readerAllows libraries store call := by
  cases call with
  | processBatch opts =>
      have stored := readerStep_processBatch taken
      simp only [readerAllows]
      cases isRead : readSegment libraries opts with
      | none =>
          rw [isRead] at stored
          dsimp only at stored
          subst stored
          exact iff_true_intro good
      | some verified =>
          rw [isRead] at stored
          obtain ⟨valid, rfl⟩ := stored
          cases verified with
          | nil =>
              exact converged_unread good
          | cons first rest =>
              exact converged_recordBatch good valid
                (List.cons_ne_nil first rest)
  | markReorged chainId txHash invalidatedAt =>
      unfold readerStep at taken
      dsimp only at taken
      split at taken
      · rename_i marked
        cases taken
        exact converged_markReorged good marked
      · rename_i error unmarked
        cases taken
        refine iff_of_true good ?_
        intro key row found inTx
        obtain ⟨sameTx, sameChain, confirmed⟩ :=
          MessageRow.isConfirmedIn_iff.mp inTx
        obtain ⟨batch, member, -, entry, -, carries⟩ :=
          good.carries key row found confirmed
        have ofTx : batch.isOf chainId txHash = true :=
          BatchRow.isOf_iff.mpr
            ⟨Option.some.inj (carries.chainId.symm.trans sameChain),
              Option.some.inj (carries.batchRef.symm.trans sameTx)⟩
        obtain ⟨marked, isMarked⟩ :=
          Store.markReorged_ok invalidatedAt member ofTx
        rw [isMarked] at unmarked
        cases unmarked

theorem converged_empty
    (keccak256 : Bytes → Bytes32) :
    Store.empty.Converged keccak256 := by
  apply converged_of_carried
  · intro key row found
    cases found
  · rintro key ⟨batch, member, -⟩
    cases member
  · intro key row found
    cases found

/-- In every run of `processBatch` and `markReorged` from the empty store,
confirmed rows and confirmed batches agree in every state exactly if every call
meets its condition. -/
theorem converged_iff_calls_allowed
    (libraries : ReaderLibraries)
    (calls : List ReaderCall) :
    Runs.AllStates (readerStep libraries)
        (Store.Converged libraries.crypto.keccak256)
        Store.empty calls ↔
      Runs.AllSteps (readerStep libraries)
        (readerAllows libraries) Store.empty calls :=
  Runs.allStates_iff_allSteps
    (fun _ _ => trivial)
    (fun _ good taken => converged_readerStep good taken)
    calls (show (fun _ => True) Store.empty from trivial)
    (converged_empty libraries.crypto.keccak256)

/-- Libraries for a run on fixed inputs: a hash that reads its input as a
number. -/
def sampleLibraries : ReaderLibraries where
  crypto := {
    keccak256 := fun bytes => BitVec.ofNat 256 (Bytewise.ofBE bytes)
    hashTypedData := fun data =>
      BitVec.ofNat 256 (Bytewise.ofBE data.contents)
    hasHighS := fun _ => false
    recoverPublicKey := fun _ _ _ => none }
  decompress := fun _ => .error .decompression

/-- The batch of a transaction that carries one message of one sender, through
an on-chain decoder and an on-chain registry that accept it. -/
def sampleBatch
    (txHash : Bytes32)
    (contents : Bytes) : ProcessBatchOptions where
  event := {
    blockNumber := 100
    txIndex := 0
    logIndex := 0
    txHash := txHash
    versionedHash := txHash
    submitter := 9
    contentTag := 5
    decoder := 1
    signatureRegistry := 1
    startFE := some 0
    endFE := some 1 }
  l1IncludedAtUnixSec := some 0
  chainId := 1
  fetchBlob := some (List.replicate 32 0)
  decodeAnswer := fun _ =>
    some ([{ sender := 7, nonce := 0, contents := contents }], [1])
  verifyAnswer := fun _ _ _ _ => some true

/-- One message in two batches, then the first of them is marked. -/
def duplicateThenReorg : List ReaderCall :=
  [.processBatch (sampleBatch 1 [3]), .processBatch (sampleBatch 2 [3]),
    .markReorged 1 1 0]

/-- A batch is marked, then another message is seen in the slot it freed. -/
def reorgThenReplace : List ReaderCall :=
  [.processBatch (sampleBatch 1 [3]), .markReorged 1 1 0,
    .processBatch (sampleBatch 2 [4])]

/-- The status of the sampled slot and the record of the second batch. -/
def sampleView (store : Store) :
    Option MessageStatus × Option (BatchStatus × List MessageKey) :=
  ((store.message? (7, 0)).map MessageRow.status,
    (store.batch? (1, 2, 5)).map fun batch =>
      (batch.status, batch.messageSnapshot.map
        BatchMessageSnapshotEntry.key))

/-- A store whose second batch is confirmed and records the sampled slot is not
converged while the slot's row is reorged. -/
theorem not_converged_of_sampleView
    {keccak256 : Bytes → Bytes32}
    {store : Store}
    (view :
      sampleView store =
        (some .reorged, some (.confirmed, [(7, 0)]))) :
    ¬ store.Converged keccak256 := by
  intro good
  obtain ⟨slotView, batchView⟩ := Prod.mk.inj view
  obtain ⟨batch, stored, facts⟩ := Option.map_eq_some_iff.mp batchView
  obtain ⟨confirmed, keys⟩ := Prod.mk.inj facts
  have recorded :
      ((7, 0) : MessageKey) ∈
        batch.messageSnapshot.map BatchMessageSnapshotEntry.key := by
    rw [keys]
    exact List.mem_singleton_self _
  obtain ⟨entry, member, ofSlot⟩ := List.mem_map.mp recorded
  obtain ⟨row, found, rowConfirmed⟩ :=
    (good.exactly (7, 0)).mpr
      ⟨batch, Table.mem_of_get? stored, confirmed, entry, member,
        ofSlot⟩
  rw [found, Option.map_some, Option.some.injEq, rowConfirmed] at slotView
  cases slotView

/-- A run that ends in the sampled view visits a state that is not
converged. -/
theorem not_allStates_of_sampleView
    {calls : List ReaderCall}
    (view :
      (Runs.exec? (readerStep sampleLibraries) Store.empty calls).map
          sampleView =
        some (some .reorged, some (.confirmed, [(7, 0)]))) :
    ¬ Runs.AllStates (readerStep sampleLibraries)
      (Store.Converged sampleLibraries.crypto.keccak256)
      Store.empty calls := by
  obtain ⟨final, executed, isView⟩ := Option.map_eq_some_iff.mp view
  intro all
  exact not_converged_of_sampleView isView (all.final executed)

/-- A message of a confirmed batch is left reorged, and a freed slot refuses
the message of a confirmed batch. -/
theorem duplicate_and_replacement_left_reorged :
    ¬ Runs.AllStates (readerStep sampleLibraries)
        (Store.Converged sampleLibraries.crypto.keccak256)
        Store.empty duplicateThenReorg ∧
      ¬ Runs.AllStates (readerStep sampleLibraries)
        (Store.Converged sampleLibraries.crypto.keccak256)
        Store.empty reorgThenReplace :=
  ⟨not_allStates_of_sampleView (by decide +kernel),
    not_allStates_of_sampleView (by decide +kernel)⟩

end Bam
