import Bam.Reader.LiveTail
import Bam.System.Sharing

namespace Bam

/-!
# Reset and rescan

`resetAll` deletes by chain id alone, whatever wrote a row.  The live tail that
follows runs over what the reset has left, in step with the live tail of a
Reader that starts with nothing: they differ only in slots where a row was left.
-/

/-- `deleteCursor`. -/
def SharedDb.deleteCursor
    (db : SharedDb)
    (chainId : Nat) : SharedDb :=
  { db with
    cursors := db.cursors.deleteWhere (ReaderCursorRow.ofChain chainId) }

/-- `Reader.resetAll`. -/
def resetAll
    (chainId : Nat)
    (db : SharedDb) : SharedDb :=
  { db with
    store := (db.store.deleteMessages chainId).deleteBatches chainId }
      |>.deleteCursor chainId

/-- A Reader that starts over a database. -/
def readerOver (db : SharedDb) : ReaderState where
  store := db.store
  cursors := db.cursors
  counters := emptyCounters
  processed := []

/-- A reset and the live tail after it. -/
def rescan
    (config : ReaderConfig)
    (ticks : List TickAnswers)
    (db : SharedDb) : Store :=
  (liveTailRun config (readerOver (resetAll config.chainId db))
    ticks).store

/-- The same live tail by a fresh Reader. -/
def freshScan
    (config : ReaderConfig)
    (ticks : List TickAnswers) : Store :=
  (liveTailRun config (readerOver SharedDb.empty) ticks).store

/-- A confirmed message of a chain. -/
def Store.ConfirmedOn
    (chainId : Nat)
    (store : Store)
    (row : MessageRow) : Prop :=
  row ∈ store.messages.rows ∧ row.status = .confirmed ∧
    row.chainId = some chainId

/-- What a reset with a rescan has to do. -/
structure RescanSound
    (config : ReaderConfig)
    (ticks : List TickAnswers)
    (db : SharedDb) : Prop where
  pending :
    ∀ row ∈ db.store.messages.rows, row.status = .pending →
      row ∈ (resetAll config.chainId db).store.messages.rows
  nonces : (resetAll config.chainId db).store.nonces = db.store.nonces
  sequences : (resetAll config.chainId db).store.tagSeq = db.store.tagSeq
  messages :
    (resetAll config.chainId db).store.messages.select
        (fun row => !row.ofChain config.chainId) =
      db.store.messages.select fun row => !row.ofChain config.chainId
  batches :
    (resetAll config.chainId db).store.batches.select
        (fun row => !row.ofChain config.chainId) =
      db.store.batches.select fun row => !row.ofChain config.chainId
  cursors :
    (resetAll config.chainId db).cursors.select
        (fun row => !row.ofChain config.chainId) =
      db.cursors.select fun row => !row.ofChain config.chainId
  rebuilt :
    ∀ row,
      (rescan config ticks db).ConfirmedOn config.chainId row ↔
        (freshScan config ticks).ConfirmedOn config.chainId row

section Slots

/-- What observing a row makes of its slot. -/
def takeSlot
    (row : MessageRow) : Option MessageRow → Option MessageRow
  | none => some row
  | some existing =>
      if existing.messageHash ≠ row.messageHash then some existing
      else if existing.status = .confirmed then some existing
      else some row

theorem message?_observe_eq
    {store : Store}
    {row : MessageRow}
    (inRange : row.nonce ≤ MAX_NONCE)
    (key : MessageKey) :
    (store.observe row).message? key =
      if row.key = key then takeSlot row (store.message? key)
      else store.message? key := by
  unfold Store.observe Store.upsertObserved
  rw [if_pos inRange]
  by_cases sameKey : row.key = key
  · subst sameKey
    rw [if_pos rfl]
    cases found : store.message? row.key with
    | none => simp [takeSlot, Store.message?_putMessage]
    | some existing =>
        dsimp only [takeSlot]
        by_cases sameHash : existing.messageHash = row.messageHash
        · by_cases final : existing.status = .confirmed
          · simp [sameHash, final, found]
          · simp [sameHash, final, Store.message?_putMessage]
        · simp [sameHash, found]
  · rw [if_neg sameKey]
    cases store.message? row.key with
    | none => simp [Store.message?_putMessage, sameKey]
    | some existing =>
        dsimp only
        by_cases sameHash : existing.messageHash = row.messageHash
        · by_cases final : existing.status = .confirmed
          · simp [sameHash, final]
          · simp [sameHash, final, Store.message?_putMessage, sameKey]
        · simp [sameHash]

/-- A slot of the rescan beside the same slot of a fresh Reader, over what the
reset has left in it. -/
def SlotRebuilt
    (left rebuilt fresh : Option MessageRow) : Prop :=
  match fresh, left with
  | none, _ => rebuilt = left
  | some row, none => rebuilt = some row
  | some row, some old =>
      if old.status = .confirmed then rebuilt = some old
      else if old.messageHash = row.messageHash then rebuilt = some row
      else ∃ other, rebuilt = some other ∧
        other.messageHash = old.messageHash

/-- A taken slot keeps its message, and a confirmed row altogether. -/
theorem takeSlot_some
    (row existing : MessageRow) :
    ∃ next,
      takeSlot row (some existing) = some next ∧
        next.messageHash = existing.messageHash ∧
        (existing.status = .confirmed → next = existing) := by
  unfold takeSlot
  by_cases sameHash : existing.messageHash = row.messageHash
  · by_cases final : existing.status = .confirmed
    · exact ⟨existing, by simp [sameHash, final], rfl, fun _ => rfl⟩
    · refine ⟨row, by simp [sameHash, final], sameHash.symm, ?_⟩
      exact fun isFinal => absurd isFinal final
  · exact ⟨existing, by simp [sameHash], rfl, fun _ => rfl⟩

/-- The slot of a row that was left. -/
theorem slotRebuilt_some
    {old row : MessageRow}
    {rebuilt : Option MessageRow} :
    SlotRebuilt (some old) rebuilt (some row) ↔
      if old.status = .confirmed then rebuilt = some old
      else if old.messageHash = row.messageHash then rebuilt = some row
      else ∃ other, rebuilt = some other ∧
        other.messageHash = old.messageHash :=
  Iff.rfl

/-- Both observe a row. -/
theorem SlotRebuilt.take
    {left rebuilt fresh : Option MessageRow}
    (slot : SlotRebuilt left rebuilt fresh)
    (row : MessageRow) :
    SlotRebuilt left (takeSlot row rebuilt) (takeSlot row fresh) := by
  cases fresh with
  | none =>
      have isLeft : rebuilt = left := slot
      subst isLeft
      cases rebuilt with
      | none => rfl
      | some old =>
          change SlotRebuilt (some old) (takeSlot row (some old)) (some row)
          rw [slotRebuilt_some, takeSlot]
          by_cases final : old.status = .confirmed
          · simp [final]
          · by_cases sameHash : old.messageHash = row.messageHash
            · simp [final, sameHash]
            · simp [final, sameHash]
  | some held =>
      obtain ⟨next, isNext, nextHash, _⟩ := takeSlot_some row held
      rw [isNext]
      cases left with
      | none =>
          have isHeld : rebuilt = some held := slot
          rw [isHeld]
          exact isNext
      | some old =>
          rw [slotRebuilt_some] at slot ⊢
          by_cases final : old.status = .confirmed
          · rw [if_pos final] at slot ⊢
            obtain ⟨same, isSame, _, unchanged⟩ := takeSlot_some row old
            rw [slot, isSame, unchanged final]
          · rw [if_neg final] at slot ⊢
            rw [nextHash]
            by_cases sameHash : old.messageHash = held.messageHash
            · rw [if_pos sameHash] at slot ⊢
              rw [slot, isNext]
            · rw [if_neg sameHash] at slot ⊢
              obtain ⟨other, isOther, otherHash⟩ := slot
              obtain ⟨after, isAfter, afterHash, _⟩ :=
                takeSlot_some row other
              rw [isOther]
              exact ⟨after, isAfter, afterHash.trans otherHash⟩

/-- A message row as a mark of a transaction leaves it. -/
def markRow
    (chainId : Nat)
    (txHash : Bytes32)
    (row : MessageRow) : MessageRow :=
  if row.isConfirmedIn chainId txHash then row.markedReorged else row

theorem messageHash_markRow
    (chainId : Nat)
    (txHash : Bytes32)
    (row : MessageRow) :
    (markRow chainId txHash row).messageHash = row.messageHash := by
  unfold markRow
  split <;> rfl

theorem chainId_markRow
    (chainId : Nat)
    (txHash : Bytes32)
    (row : MessageRow) :
    (markRow chainId txHash row).chainId = row.chainId := by
  unfold markRow
  split <;> rfl

/-- A row of another chain is not marked. -/
theorem markRow_of_outside
    {chainId : Nat}
    {row : MessageRow}
    (outside : row.chainId ≠ some chainId)
    (txHash : Bytes32) :
    markRow chainId txHash row = row := by
  unfold markRow
  rw [if_neg]
  intro marked
  exact outside (MessageRow.isConfirmedIn_iff.mp marked).2.1

/-- Both mark a transaction; what the reset has left is of other chains. -/
theorem SlotRebuilt.mark
    {left rebuilt fresh : Option MessageRow}
    {chainId : Nat}
    (slot : SlotRebuilt left rebuilt fresh)
    (outside : ∀ old, left = some old → old.chainId ≠ some chainId)
    (txHash : Bytes32) :
    SlotRebuilt left (rebuilt.map (markRow chainId txHash))
      (fresh.map (markRow chainId txHash)) := by
  cases left with
  | none =>
      cases fresh with
      | none =>
          have isLeft : rebuilt = none := slot
          rw [isLeft]
          rfl
      | some held =>
          have isHeld : rebuilt = some held := slot
          rw [isHeld]
          rfl
  | some old =>
      have unmarked := markRow_of_outside (outside old rfl) txHash
      cases fresh with
      | none =>
          have isLeft : rebuilt = some old := slot
          rw [isLeft]
          exact congrArg some unmarked
      | some held =>
          rw [Option.map_some, slotRebuilt_some, messageHash_markRow]
          rw [slotRebuilt_some] at slot
          by_cases final : old.status = .confirmed
          · rw [if_pos final] at slot ⊢
            rw [slot, Option.map_some, unmarked]
          · rw [if_neg final] at slot ⊢
            by_cases sameHash : old.messageHash = held.messageHash
            · rw [if_pos sameHash] at slot ⊢
              rw [slot, Option.map_some]
            · rw [if_neg sameHash] at slot ⊢
              obtain ⟨other, isOther, otherHash⟩ := slot
              rw [isOther]
              exact ⟨_, rfl, (messageHash_markRow ..).trans otherHash⟩

end Slots

/-- The rescan over what a reset has left, beside a fresh Reader. -/
structure Rescanned
    (chainId : Nat)
    (left rebuilt fresh : Store) : Prop where
  outside :
    ∀ key old, left.message? key = some old →
      old.chainId ≠ some chainId
  slots :
    ∀ key,
      SlotRebuilt (left.message? key) (rebuilt.message? key)
        (fresh.message? key)
  own :
    ∀ key row, fresh.message? key = some row →
      row.chainId = some chainId
  batches :
    rebuilt.batches.select (BatchRow.ofChain chainId) =
      fresh.batches.select (BatchRow.ofChain chainId)

section Stores

variable {chainId : Nat} {left rebuilt fresh : Store}

/-- Both observe a row of the chain. -/
theorem Rescanned.observe
    (rescanned : Rescanned chainId left rebuilt fresh)
    {row : MessageRow}
    (inRange : row.nonce ≤ MAX_NONCE)
    (ofChain : row.chainId = some chainId) :
    Rescanned chainId left (rebuilt.observe row) (fresh.observe row) where
  outside := rescanned.outside
  slots := by
    intro key
    rw [message?_observe_eq inRange, message?_observe_eq inRange]
    by_cases sameKey : row.key = key
    · rw [if_pos sameKey, if_pos sameKey]
      exact (rescanned.slots key).take row
    · rw [if_neg sameKey, if_neg sameKey]
      exact rescanned.slots key
  own := by
    intro key other found
    rcases Store.message?_observe fresh row key with
      same | ⟨_, taken, _⟩
    · exact rescanned.own key other (same.symm.trans found)
    · have isRow := Option.some.inj (taken.symm.trans found)
      rw [← isRow]
      exact ofChain
  batches := by
    rw [Store.batches_observe, Store.batches_observe]
    exact rescanned.batches

theorem Rescanned.foldl_observe
    (rescanned : Rescanned chainId left rebuilt fresh)
    {rows : List MessageRow}
    (fit : ∀ row ∈ rows,
      row.nonce ≤ MAX_NONCE ∧ row.chainId = some chainId) :
    Rescanned chainId left (rows.foldl Store.observe rebuilt)
      (rows.foldl Store.observe fresh) := by
  induction rows generalizing rebuilt fresh with
  | nil => exact rescanned
  | cons row rest inductionHypothesis =>
      obtain ⟨inRange, ofChain⟩ := fit row (List.mem_cons_self ..)
      exact inductionHypothesis (rescanned.observe inRange ofChain)
        fun other member => fit other (List.mem_cons_of_mem row member)

/-- A batch row of the chain is looked up among the rows of the chain. -/
theorem batch?_of_chain
    (store : Store)
    {key : BatchKey}
    (ofChain : key.1 = chainId) :
    store.batch? key =
      (store.batches.select (BatchRow.ofChain chainId)).find?
        fun row => row.key = key := by
  apply Table.get?_of_select
  intro row _ sameKey
  have sameChain : row.chainId = chainId :=
    (congrArg Prod.fst sameKey).trans ofChain
  simp [BatchRow.ofChain, sameChain]

/-- Both record a batch row of the chain. -/
theorem Rescanned.upsertBatch
    (rescanned : Rescanned chainId left rebuilt fresh)
    {row : BatchRow}
    (ofChain : row.chainId = chainId) :
    Rescanned chainId left (rebuilt.upsertBatch row)
      (fresh.upsertBatch row) where
  outside := rescanned.outside
  slots := by
    intro key
    rw [Store.message?_upsertBatch, Store.message?_upsertBatch]
    exact rescanned.slots key
  own := by
    intro key other found
    rw [Store.message?_upsertBatch] at found
    exact rescanned.own key other found
  batches := by
    have sameRow : rebuilt.batch? row.key = fresh.batch? row.key := by
      rw [batch?_of_chain rebuilt ofChain, batch?_of_chain fresh ofChain,
        rescanned.batches]
    unfold Store.upsertBatch
    rw [sameRow]
    cases fresh.batch? row.key with
    | none =>
        have selected : BatchRow.ofChain chainId row = true := by
          simp [BatchRow.ofChain, ofChain]
        dsimp only [Store.putBatch]
        rw [Table.select_put _ selected, Table.select_put _ selected,
          rescanned.batches]
    | some existing =>
        have selected :
            BatchRow.ofChain chainId (existing.upsertedBy row) = true := by
          simp [BatchRow.ofChain, BatchRow.upsertedBy, ofChain]
        dsimp only [Store.putBatch]
        rw [Table.select_put _ selected, Table.select_put _ selected,
          rescanned.batches]

/-- Both record a batch of the chain with its messages. -/
theorem Rescanned.recordBatch
    (rescanned : Rescanned chainId left rebuilt fresh)
    {batch : BatchRow}
    {rows : List MessageRow}
    (ofChain : batch.chainId = chainId)
    (fit : ∀ row ∈ rows,
      row.nonce ≤ MAX_NONCE ∧ row.chainId = some chainId) :
    Rescanned chainId left (rebuilt.recordBatch batch rows)
      (fresh.recordBatch batch rows) :=
  (rescanned.upsertBatch ofChain).foldl_observe fit

/-- Both find a batch row of a transaction of the chain, or neither. -/
theorem Rescanned.any_isOf
    (rescanned : Rescanned chainId left rebuilt fresh)
    (txHash : Bytes32) :
    rebuilt.batches.rows.any (BatchRow.isOf chainId txHash) =
      fresh.batches.rows.any (BatchRow.isOf chainId txHash) := by
  have narrow (store : Store) :
      store.batches.rows.any (BatchRow.isOf chainId txHash) =
        (store.batches.select (BatchRow.ofChain chainId)).any
          (BatchRow.isOf chainId txHash) := by
    rw [Bool.eq_iff_iff, List.any_eq_true, List.any_eq_true]
    constructor
    · rintro ⟨row, member, ofTx⟩
      refine ⟨row, Table.mem_select.mpr ⟨member, ?_⟩, ofTx⟩
      simp [BatchRow.ofChain, (BatchRow.isOf_iff.mp ofTx).1]
    · rintro ⟨row, member, ofTx⟩
      exact ⟨row, (Table.mem_select.mp member).1, ofTx⟩
  rw [narrow rebuilt, narrow fresh, rescanned.batches]

/-- Both mark a transaction of the chain, or neither. -/
theorem Rescanned.markReorged
    (rescanned : Rescanned chainId left rebuilt fresh)
    (txHash : Bytes32)
    (invalidatedAt : Int) :
    match rebuilt.markReorged chainId txHash invalidatedAt,
      fresh.markReorged chainId txHash invalidatedAt with
    | .ok nextRebuilt, .ok nextFresh =>
        Rescanned chainId left nextRebuilt nextFresh
    | .error _, .error _ => True
    | _, _ => False := by
  have sameBatch := rescanned.any_isOf txHash
  cases markedRebuilt :
      rebuilt.markReorged chainId txHash invalidatedAt with
  | error error =>
      cases markedFresh :
          fresh.markReorged chainId txHash invalidatedAt with
      | error other => trivial
      | ok next =>
          unfold Store.markReorged at markedRebuilt markedFresh
          rw [sameBatch] at markedRebuilt
          split at markedRebuilt
          · cases markedRebuilt
          · rename_i none
            rw [if_neg none] at markedFresh
            cases markedFresh
  | ok nextRebuilt =>
      cases markedFresh :
          fresh.markReorged chainId txHash invalidatedAt with
      | error other =>
          unfold Store.markReorged at markedRebuilt markedFresh
          rw [sameBatch] at markedRebuilt
          split at markedRebuilt
          · rename_i found
            rw [if_pos found] at markedFresh
            cases markedFresh
          · cases markedRebuilt
      | ok nextFresh =>
          dsimp only
          refine ⟨rescanned.outside, ?_, ?_, ?_⟩
          · intro key
            rw [Store.message?_markReorged markedRebuilt,
              Store.message?_markReorged markedFresh]
            exact (rescanned.slots key).mark (rescanned.outside key) txHash
          · intro key row found
            rw [Store.message?_markReorged markedFresh,
              Option.map_eq_some_iff] at found
            obtain ⟨held, isHeld, rfl⟩ := found
            exact (chainId_markRow chainId txHash held).trans
              (rescanned.own key held isHeld)
          · have keeps : ∀ row : BatchRow,
                BatchRow.ofChain chainId (row.markedReorged invalidatedAt) =
                  BatchRow.ofChain chainId row :=
              fun _ => rfl
            unfold Store.markReorged at markedRebuilt markedFresh
            split at markedRebuilt
            · cases markedRebuilt
              split at markedFresh
              · cases markedFresh
                dsimp only
                rw [Table.select_update _ _ keeps,
                  Table.select_update _ _ keeps, rescanned.batches]
              · cases markedFresh
            · cases markedRebuilt

end Stores

section Batches

variable {libraries : ReaderLibraries} {opts : ProcessBatchOptions}

/-- The messages, the store and the counters have no part in how a batch
ends. -/
theorem processBatch_alike
    (libraries : ReaderLibraries)
    (opts : ProcessBatchOptions)
    (first second : Store)
    (firstCounters secondCounters : ReaderCounters) :
    Attempt.EndAlike
      (fun left right =>
        left.2.txIndex = right.2.txIndex ∧
          left.2.outcome = right.2.outcome)
      (processBatch libraries opts first firstCounters).2
      (processBatch libraries opts second secondCounters).2 := by
  unfold processBatch
  dsimp only
  split
  · exact ⟨rfl, rfl⟩
  cases opts.fetchBlob with
  | none => exact ⟨rfl, rfl⟩
  | some blobBytes =>
      dsimp only
      split
      · trivial
      rename_i usableBytes _
      cases decode libraries.decompress opts.event.decoder usableBytes
          (opts.decodeAnswer usableBytes) with
      | error error => exact ⟨rfl, rfl⟩
      | ok decoded =>
          dsimp only [processDecoded]
          have same := verifyMessages_counters libraries opts 0
            (decoded.messages.zip decoded.signatures) firstCounters
            secondCounters
          cases firstRun : verifyMessages libraries opts 0
              (decoded.messages.zip decoded.signatures)
              firstCounters with
          | mk firstCounted firstEnd =>
          cases secondRun : verifyMessages libraries opts 0
              (decoded.messages.zip decoded.signatures)
              secondCounters with
          | mk secondCounted secondEnd =>
          rw [firstRun, secondRun] at same
          dsimp only at same
          subst same
          cases firstEnd with
          | error error => trivial
          | ok verified =>
              have valid := verifyMessages_valid
                (congrArg Prod.snd firstRun)
              dsimp only
              cases verified.mapM
                  (VerifiedEntry.toSnapshotEntry libraries opts) with
              | none => trivial
              | some snapshot =>
                  dsimp only
                  obtain ⟨firstAfter, firstTotal, firstObserved⟩ :=
                    observeMessages_valid valid
                      (first.upsertBatch
                        { opts.baseBatch with messageSnapshot := snapshot })
                      firstCounted 0
                  obtain ⟨secondAfter, secondTotal, secondObserved⟩ :=
                    observeMessages_valid valid
                      (second.upsertBatch
                        { opts.baseBatch with messageSnapshot := snapshot })
                      secondCounted 0
                  rw [firstObserved, secondObserved]
                  exact ⟨rfl, rfl⟩

/-- The rows of a segment fit their slots and are of the chain. -/
theorem messageRows_fit
    {verified : List VerifiedEntry}
    (valid : ∀ entry ∈ verified, entry.Valid libraries opts) :
    ∀ row ∈ opts.messageRows libraries verified,
      row.nonce ≤ MAX_NONCE ∧ row.chainId = some opts.chainId := by
  intro row member
  obtain ⟨entry, isEntry, isRow⟩ := List.mem_filterMap.mp member
  unfold VerifiedEntry.toMessageRow at isRow
  obtain ⟨messageId, _, rfl⟩ := Option.map_eq_some_iff.mp isRow
  exact ⟨(valid entry isEntry).nonce, rfl⟩

/-- Both process a batch of the chain. -/
theorem Rescanned.processBatch
    {left rebuilt fresh nextRebuilt nextFresh : Store}
    {rebuiltResult freshResult : ProcessBatchResult}
    {rebuiltCounters freshCounters : ReaderCounters}
    (rescanned : Rescanned opts.chainId left rebuilt fresh)
    (rebuiltReturns :
      (Bam.processBatch libraries opts rebuilt rebuiltCounters).2 =
        .ok (nextRebuilt, rebuiltResult))
    (freshReturns :
      (Bam.processBatch libraries opts fresh freshCounters).2 =
        .ok (nextFresh, freshResult)) :
    Rescanned opts.chainId left nextRebuilt nextFresh := by
  have rebuiltStore :=
    processBatch_store libraries opts rebuilt rebuiltCounters
  have freshStore := processBatch_store libraries opts fresh freshCounters
  cases isRead : readSegment libraries opts with
  | none =>
      rw [isRead] at rebuiltStore freshStore
      rw [rebuiltStore _ _ rebuiltReturns, freshStore _ _ freshReturns]
      exact rescanned
  | some verified =>
      rw [isRead] at rebuiltStore freshStore
      obtain ⟨valid, _, rebuiltRuns⟩ := rebuiltStore
      obtain ⟨_, _, freshRuns⟩ := freshStore
      rw [rebuiltReturns] at rebuiltRuns
      rw [freshReturns] at freshRuns
      cases rebuiltRuns
      cases freshRuns
      exact rescanned.recordBatch rfl (messageRows_fit valid)

end Batches

section LiveTail

variable {config : ReaderConfig} {left : Store}

/-- Two Readers in the middle of the rescan. -/
def ReadersInStep
    (config : ReaderConfig)
    (left : Store)
    (rebuilt fresh : ReaderState) : Prop :=
  Rescanned config.chainId left rebuilt.store fresh.store ∧
    rebuilt.cursor config = fresh.cursor config

theorem inStep_processEvent
    (event : BlobBatchRegisteredEvent)
    (timestampUnixSec : Nat)
    (answers : EventAnswers) :
    Attempt.InStep (ReadersInStep config left)
      (fun first second : ProcessBatchResult =>
        first.txIndex = second.txIndex ∧
          first.outcome = second.outcome)
      (processEvent config event timestampUnixSec answers)
      (processEvent config event timestampUnixSec answers) := by
  rintro rebuilt fresh ⟨rescanned, sameCursor⟩
  have alike := processBatch_alike config.libraries
    (config.processOptions event timestampUnixSec answers)
    rebuilt.store fresh.store rebuilt.counters fresh.counters
  have next {nextRebuilt nextFresh : Store}
      {rebuiltResult freshResult : ProcessBatchResult} :=
    @Rescanned.processBatch config.libraries
      (config.processOptions event timestampUnixSec answers) left
      rebuilt.store fresh.store nextRebuilt nextFresh rebuiltResult
      freshResult rebuilt.counters fresh.counters rescanned
  unfold processEvent
  dsimp only
  cases rebuiltRun : processBatch config.libraries
      (config.processOptions event timestampUnixSec answers)
      rebuilt.store rebuilt.counters with
  | mk rebuiltCounters rebuiltEnd =>
  cases freshRun : processBatch config.libraries
      (config.processOptions event timestampUnixSec answers)
      fresh.store fresh.counters with
  | mk freshCounters freshEnd =>
  rw [rebuiltRun, freshRun] at alike next
  dsimp only at alike next
  cases rebuiltEnd with
  | error error =>
      cases freshEnd with
      | error failure => exact ⟨⟨rescanned, sameCursor⟩, trivial⟩
      | ok returned => cases alike
  | ok rebuiltReturned =>
      cases freshEnd with
      | error failure => cases alike
      | ok freshReturned =>
          obtain ⟨nextRebuilt, rebuiltResult⟩ := rebuiltReturned
          obtain ⟨nextFresh, freshResult⟩ := freshReturned
          have nextRescanned := next rfl rfl
          obtain ⟨sameTx, sameOutcome⟩ := alike
          dsimp only at sameTx sameOutcome ⊢
          rw [sameOutcome]
          cases (if freshResult.outcome = .range_rejected then
              StoreFate.commits else answers.fate) with
          | commits =>
              exact ⟨⟨nextRescanned, sameCursor⟩, sameTx, sameOutcome⟩
          | rollsBack => exact ⟨⟨rescanned, sameCursor⟩, trivial⟩
          | unacknowledged =>
              exact ⟨⟨nextRescanned, sameCursor⟩, trivial⟩

theorem inStep_processEvents
    (timestampUnixSec : Nat)
    (answers : Nat → BlobBatchRegisteredEvent → EventAnswers)
    (tally : BlockTally)
    (events : List BlobBatchRegisteredEvent) :
    Attempt.InStep (ReadersInStep config left) (· = ·)
      (processEvents config timestampUnixSec answers tally events)
      (processEvents config timestampUnixSec answers tally events) := by
  refine Attempt.inStep_fold ?_ events rfl
  rintro event tally _ rfl
  refine Attempt.inStep_andThen (inStep_processEvent event
    timestampUnixSec (answers tally.processed event)) ?_
  intro first second ⟨sameTx, sameOutcome⟩
  rw [sameTx, sameOutcome]
  exact Attempt.inStep_done rfl

theorem inStep_commitBlock
    (blockNumber lastTxIndex : Nat)
    (now : Int)
    (fate : StoreFate) :
    Attempt.InStep (ReadersInStep config left) (· = ·)
      (commitBlock config blockNumber lastTxIndex now fate)
      (commitBlock config blockNumber lastTxIndex now fate) := by
  rintro rebuilt fresh ⟨rescanned, sameCursor⟩
  unfold commitBlock
  dsimp only
  cases fate with
  | commits =>
      refine ⟨⟨rescanned, ?_⟩, rfl⟩
      simp [ReaderState.cursor]
  | rollsBack => exact ⟨⟨rescanned, sameCursor⟩, trivial⟩
  | unacknowledged =>
      refine ⟨⟨rescanned, ?_⟩, trivial⟩
      simp [ReaderState.cursor]

/-- A park puts back counters that the rescan does not go by. -/
theorem inStep_restoreCounters
    (first second : ReaderCounters) :
    Attempt.InStep (ReadersInStep config left) (· = ·)
      (restoreCounters first) (restoreCounters second) :=
  fun _ _ inStep => ⟨inStep, rfl⟩

theorem inStep_liveTailBlock
    (answers : TickAnswers)
    (tally : LoopTally)
    (group : Nat × List BlobBatchRegisteredEvent) :
    Attempt.InStep (ReadersInStep config left) (· = ·)
      (liveTailBlock config answers tally group)
      (liveTailBlock config answers tally group) := by
  unfold liveTailBlock
  split
  · exact Attempt.inStep_done rfl
  refine Attempt.inStep_andThen (Attempt.inStep_ofOption _) ?_
  rintro timestampUnixSec _ rfl
  refine Attempt.inStep_reading fun rebuilt fresh _ => ?_
  refine Attempt.inStep_andThen (inStep_processEvents _ _ _ _) ?_
  rintro block _ rfl
  unfold settleBlock
  split
  · refine Attempt.inStep_andThen (inStep_restoreCounters _ _) ?_
    intro _ _ _
    exact Attempt.inStep_done rfl
  · refine Attempt.inStep_andThen (inStep_commitBlock _ _ _ _) ?_
    intro _ _ _
    exact Attempt.inStep_done rfl

theorem inStep_catchUp
    (answers : TickAnswers)
    (toBlock : Nat)
    (groups : List (Nat × List BlobBatchRegisteredEvent))
    (tally : LoopTally) :
    Attempt.InStep (ReadersInStep config left) (· = ·)
      (catchUp config answers toBlock groups tally)
      (catchUp config answers toBlock groups tally) := by
  unfold catchUp
  split
  · exact inStep_commitBlock _ _ _ _
  · exact Attempt.inStep_done rfl

/-- Both list the same candidates of the watcher. -/
theorem Rescanned.candidates
    {chainId : Nat}
    {rebuilt fresh : Store}
    (rescanned : Rescanned chainId left rebuilt fresh)
    (reorgWindowBlocks : Option Int)
    (head : Nat) :
    readerReorgCandidates chainId reorgWindowBlocks rebuilt head =
      readerReorgCandidates chainId reorgWindowBlocks fresh head := by
  have listed (store : Store) (query : BatchesQuery)
      (ofChain : query.chainId = some chainId) :
      store.batches.select query.admits =
        (store.batches.select (BatchRow.ofChain chainId)).filter
          query.admits := by
    apply Table.select_of_select
    intro row _ admitted
    simp only [BatchesQuery.admits, ofChain, Option.all_some,
      Bool.and_eq_true, decide_eq_true_eq] at admitted
    simp [BatchRow.ofChain, admitted.1.1.2]
  unfold readerReorgCandidates Store.listBatches
  rw [listed rebuilt _ rfl, listed fresh _ rfl, rescanned.batches]

theorem inStep_watchNext
    (answers : WatchAnswers)
    (tally : WatchResult)
    (batch : BatchRow) :
    Attempt.InStep (ReadersInStep config left) (· = ·)
      (watchNext config answers tally batch)
      (watchNext config answers tally batch) := by
  unfold watchNext
  dsimp only
  refine Attempt.inStep_andThen (Attempt.inStep_ofOption _) ?_
  rintro current _ rfl
  cases current with
  | some blockNumber => exact Attempt.inStep_done rfl
  | none =>
      rintro rebuilt fresh ⟨rescanned, sameCursor⟩
      have marks := rescanned.markReorged batch.txHash
        (answers.now (tally.reorgedCount + tally.keptCount))
      dsimp only [markDropped, readerReorgBatch]
      revert marks
      cases rebuilt.store.markReorged config.chainId batch.txHash
          (answers.now (tally.reorgedCount + tally.keptCount)) with
      | error error =>
          cases fresh.store.markReorged config.chainId batch.txHash
              (answers.now (tally.reorgedCount + tally.keptCount)) with
          | error failure =>
              intro _
              exact ⟨⟨rescanned, sameCursor⟩, trivial⟩
          | ok next =>
              intro marks
              cases marks
      | ok nextRebuilt =>
          cases fresh.store.markReorged config.chainId batch.txHash
              (answers.now (tally.reorgedCount + tally.keptCount)) with
          | error failure =>
              intro marks
              cases marks
          | ok nextFresh =>
              intro marks
              cases answers.fate (tally.reorgedCount + tally.keptCount) with
              | commits => exact ⟨⟨marks, sameCursor⟩, rfl⟩
              | rollsBack => exact ⟨⟨rescanned, sameCursor⟩, trivial⟩
              | unacknowledged => exact ⟨⟨marks, sameCursor⟩, trivial⟩

theorem inStep_readerReorgTick
    (answers : WatchAnswers) :
    Attempt.InStep (ReadersInStep config left) (· = ·)
      (readerReorgTick config answers)
      (readerReorgTick config answers) := by
  unfold readerReorgTick
  refine Attempt.inStep_andThen (Attempt.inStep_ofOption _) ?_
  rintro head _ rfl
  split
  · refine Attempt.inStep_reading fun rebuilt fresh inStep => ?_
    rw [inStep.1.candidates]
    refine Attempt.inStep_fold ?_ _ rfl
    rintro batch tally _ rfl
    exact inStep_watchNext answers tally batch
  · exact Attempt.inStep_fail

/-- A tick over what the reset has left is in step with one of a fresh
Reader. -/
theorem inStep_liveTailTick
    (answers : TickAnswers) :
    Attempt.InStep (ReadersInStep config left) (· = ·)
      (liveTailTick config answers) (liveTailTick config answers) := by
  unfold liveTailTick
  refine Attempt.inStep_andThen (Attempt.inStep_ofOption _) ?_
  rintro head _ rfl
  split
  · refine Attempt.inStep_reading fun rebuilt fresh inStep => ?_
    have sameFrom : scanFrom config rebuilt = scanFrom config fresh := by
      unfold scanFrom
      rw [inStep.2]
    rw [sameFrom]
    unfold liveTailFrom
    dsimp only
    split
    · exact Attempt.inStep_done rfl
    unfold liveTailRange
    refine Attempt.inStep_andThen (Attempt.inStep_ofExcept _) ?_
    rintro events _ rfl
    refine Attempt.inStep_andThen (Attempt.inStep_fold ?_ _ rfl) ?_
    · rintro group tally _ rfl
      exact inStep_liveTailBlock answers tally group
    rintro tally _ rfl
    refine Attempt.inStep_andThen (inStep_catchUp _ _ _ _) ?_
    intro _ _ _
    refine Attempt.inStep_andThen (inStep_readerReorgTick _) ?_
    rintro watch _ rfl
    exact Attempt.inStep_done rfl
  · exact Attempt.inStep_fail

theorem readersInStep_liveTailRun
    {rebuilt fresh : ReaderState}
    (inStep : ReadersInStep config left rebuilt fresh)
    (ticks : List TickAnswers) :
    ReadersInStep config left (liveTailRun config rebuilt ticks)
      (liveTailRun config fresh ticks) := by
  induction ticks generalizing rebuilt fresh with
  | nil => exact inStep
  | cons answers rest inductionHypothesis =>
      exact inductionHypothesis
        (inStep_liveTailTick answers rebuilt fresh inStep).1

/-- What a reset has left is of other chains. -/
theorem readersInStep_resetAll
    (db : SharedDb) :
    ReadersInStep config (resetAll config.chainId db).store
      (readerOver (resetAll config.chainId db))
      (readerOver SharedDb.empty) where
  left := {
    outside := by
      intro key old found
      have kept := Table.mem_of_get? found
      have isOther := (List.mem_filter.mp kept).2
      simpa [MessageRow.ofChain] using isOther
    slots := fun _ => rfl
    own := by
      intro key row found
      cases found
    batches := by
      have emptied : (resetAll config.chainId db).store.batches.select
          (BatchRow.ofChain config.chainId) = [] := by
        dsimp only [resetAll, SharedDb.deleteCursor, Store.deleteBatches]
        rw [Table.select_deleteWhere, List.filter_eq_nil_iff]
        intro row member
        simp [(Table.mem_select.mp member).2]
      exact emptied }
  right := by
    have noCursor : (resetAll config.chainId db).cursors.get?
        config.chainId = none := by
      dsimp only [resetAll, SharedDb.deleteCursor]
      rw [Table.get?_deleteWhere]
      cases found : db.cursors.get? config.chainId with
      | none => rfl
      | some row =>
          simp [Option.filter, ReaderCursorRow.ofChain,
            Table.key_of_get? found]
    exact noCursor

/-- The slots of the rescan. -/
theorem rescanned_rescan
    (config : ReaderConfig)
    (ticks : List TickAnswers)
    (db : SharedDb) :
    Rescanned config.chainId (resetAll config.chainId db).store
      (rescan config ticks db) (freshScan config ticks) :=
  (readersInStep_liveTailRun (readersInStep_resetAll db) ticks).1

end LiveTail

section Rebuilt

variable {config : ReaderConfig} {ticks : List TickAnswers}
variable {db : SharedDb}

theorem confirmedOn_iff
    {store : Store}
    {chainId : Nat}
    {row : MessageRow} :
    store.ConfirmedOn chainId row ↔
      store.message? row.key = some row ∧ row.status = .confirmed ∧
        row.chainId = some chainId := by
  unfold Store.ConfirmedOn
  rw [Table.mem_rows_iff]
  rfl

/-- No row of the chain is pending. -/
def NothingPending
    (chainId : Nat)
    (db : SharedDb) : Prop :=
  ∀ row ∈ db.store.messages.rows,
    row.chainId = some chainId → row.status ≠ .pending

/-- A row the reset has left gives way to a row of the same slot. -/
def MessageRow.GivesWay (old row : MessageRow) : Prop :=
  old.status ≠ .confirmed ∧ old.messageHash = row.messageHash

/-- Rows of other chains give way in the slots a fresh Reader takes; a
confirmed one may stay where the chain has dropped the message again. -/
def Unobstructed
    (config : ReaderConfig)
    (ticks : List TickAnswers)
    (db : SharedDb) : Prop :=
  ∀ old ∈ db.store.messages.rows, old.chainId ≠ some config.chainId →
    ∀ row, (freshScan config ticks).message? old.key = some row →
      old.GivesWay row ∨
        old.status = .confirmed ∧ row.status ≠ .confirmed

/-- The pending rows survive exactly if there are none of the chain. -/
theorem pending_kept_iff
    (chainId : Nat)
    (db : SharedDb) :
    (∀ row ∈ db.store.messages.rows, row.status = .pending →
        row ∈ (resetAll chainId db).store.messages.rows) ↔
      NothingPending chainId db := by
  have kept (row : MessageRow) :
      row ∈ (resetAll chainId db).store.messages.rows ↔
        row ∈ db.store.messages.rows ∧ row.chainId ≠ some chainId := by
    dsimp only [resetAll, SharedDb.deleteCursor, Store.deleteMessages,
      Store.deleteBatches, Table.deleteWhere]
    rw [List.mem_filter]
    simp [MessageRow.ofChain]
  constructor
  · intro survive row member ofChain pending
    exact ((kept row).mp (survive row member pending)).2 ofChain
  · intro nothing row member pending
    exact (kept row).mpr
      ⟨member, fun ofChain => nothing row member ofChain pending⟩

/-- A row left by the reset, in its slot. -/
theorem message?_resetAll
    {chainId : Nat}
    {key : MessageKey}
    {old : MessageRow} :
    (resetAll chainId db).store.message? key = some old ↔
      old ∈ db.store.messages.rows ∧ old.key = key ∧
        old.chainId ≠ some chainId := by
  have found : (resetAll chainId db).store.message? key =
      (db.store.message? key).filter
        fun row => !row.ofChain chainId :=
    Table.get?_deleteWhere _ _ _
  rw [found, Option.filter_eq_some_iff]
  constructor
  · rintro ⟨stored, other⟩
    exact ⟨Table.mem_of_get? stored, Table.key_of_get? stored,
      by simpa [MessageRow.ofChain] using other⟩
  · rintro ⟨member, rfl, other⟩
    exact ⟨Table.mem_rows_iff.mp member,
      by simpa [MessageRow.ofChain] using other⟩

/-- Where nothing is in the way, the confirmed messages are those of a fresh
Reader. -/
theorem rebuilt_of_unobstructed
    (unobstructed : Unobstructed config ticks db)
    (row : MessageRow) :
    (rescan config ticks db).ConfirmedOn config.chainId row ↔
      (freshScan config ticks).ConfirmedOn config.chainId row := by
  have rescanned := rescanned_rescan config ticks db
  rw [confirmedOn_iff, confirmedOn_iff]
  have slot := rescanned.slots row.key
  cases left : (resetAll config.chainId db).store.message? row.key with
  | none =>
      rw [left] at slot
      cases fresh : (freshScan config ticks).message? row.key with
      | none =>
          rw [fresh] at slot
          rw [slot]
      | some held =>
          rw [fresh] at slot
          rw [slot]
  | some old =>
      have other := rescanned.outside row.key old left
      obtain ⟨member, sameKey, _⟩ := message?_resetAll.mp left
      rw [left] at slot
      cases fresh : (freshScan config ticks).message? row.key with
      | none =>
          rw [fresh] at slot
          rw [slot]
          constructor
          · rintro ⟨isOld, _, ofChain⟩
            cases isOld
            exact absurd ofChain other
          · rintro ⟨isNone, _⟩
            cases isNone
      | some held =>
          rw [fresh, slotRebuilt_some] at slot
          rcases unobstructed old member other held
              (sameKey.symm ▸ fresh) with
            ⟨notFinal, sameHash⟩ | ⟨final, notHeld⟩
          · rw [if_neg notFinal, if_pos sameHash] at slot
            rw [slot]
          · rw [if_pos final] at slot
            rw [slot]
            constructor
            · rintro ⟨isOld, _, ofChain⟩
              cases isOld
              exact absurd ofChain other
            · rintro ⟨isHeld, confirmed, _⟩
              cases isHeld
              exact absurd confirmed notHeld

/-- A message a fresh Reader confirms is rebuilt only in a slot where nothing
is in the way. -/
theorem givesWay_of_rebuilt
    (rebuilt :
      ∀ row,
        (rescan config ticks db).ConfirmedOn config.chainId row ↔
          (freshScan config ticks).ConfirmedOn config.chainId row)
    {old row : MessageRow}
    (member : old ∈ db.store.messages.rows)
    (other : old.chainId ≠ some config.chainId)
    (fresh : (freshScan config ticks).message? old.key = some row)
    (confirmed : row.status = .confirmed) :
    old.GivesWay row := by
  have rescanned := rescanned_rescan config ticks db
  have sameKey : row.key = old.key := Store.key_of_message? fresh
  have left : (resetAll config.chainId db).store.message? row.key =
      some old :=
    message?_resetAll.mpr ⟨member, sameKey.symm, other⟩
  rw [← sameKey] at fresh
  have ofChain := rescanned.own row.key row fresh
  have isRebuilt : (rescan config ticks db).message? row.key = some row :=
    (confirmedOn_iff.mp ((rebuilt row).mpr
      (confirmedOn_iff.mpr ⟨fresh, confirmed, ofChain⟩))).1
  have slot := rescanned.slots row.key
  rw [left, fresh, slotRebuilt_some, isRebuilt] at slot
  by_cases final : old.status = .confirmed
  · rw [if_pos final] at slot
    cases slot
    exact absurd ofChain other
  · rw [if_neg final] at slot
    refine ⟨final, ?_⟩
    by_cases sameHash : old.messageHash = row.messageHash
    · exact sameHash
    · rw [if_neg sameHash] at slot
      obtain ⟨kept, isKept, keptHash⟩ := slot
      cases isKept
      exact keptHash.symm

end Rebuilt

/-- A reset with a rescan does what it has to where no row of the chain is
pending and rows of other chains give way; and only where no row is pending and
rows of other chains give way to the messages a fresh Reader confirms. -/
theorem rescanSound_resetAll
    (config : ReaderConfig)
    (ticks : List TickAnswers)
    (db : SharedDb) :
    (NothingPending config.chainId db ∧ Unobstructed config ticks db →
        RescanSound config ticks db) ∧
      (RescanSound config ticks db →
        NothingPending config.chainId db ∧
          ∀ old ∈ db.store.messages.rows,
            old.chainId ≠ some config.chainId →
            ∀ row,
              (freshScan config ticks).message? old.key = some row →
              row.status = .confirmed →
              old.GivesWay row) := by
  constructor
  · rintro ⟨nothing, unobstructed⟩
    constructor
    · exact (pending_kept_iff config.chainId db).mpr nothing
    · rfl
    · rfl
    · exact Table.select_deleteWhere_of_outside fun row ofChain => by
        simp [ofChain]
    · exact Table.select_deleteWhere_of_outside fun row ofChain => by
        simp [ofChain]
    · exact Table.select_deleteWhere_of_outside fun row ofChain => by
        simp [ofChain]
    · exact rebuilt_of_unobstructed unobstructed
  · intro sound
    refine ⟨(pending_kept_iff config.chainId db).mp sound.pending, ?_⟩
    intro old member other row fresh confirmed
    exact givesWay_of_rebuilt sound.rebuilt member other fresh confirmed

/-- A message accepted on a chain, waiting for its submission. -/
def acceptedRow (chainId : Nat) : MessageRow :=
  StoreTxnPendingRow.toMessageRow {
    contentTag := 0x7a
    sender := 0x5e
    nonce := 0
    contents := [0x68, 0x69]
    signature := List.replicate 65 0x01
    messageHash := 0x01
    chainId := chainId
    ingestedAt := 0
    ingestSeq := 1 }

def acceptedDb (chainId : Nat) : SharedDb where
  store := Store.empty.putMessage (acceptedRow chainId)
  cursors := Table.empty

/-- A reset deletes the message before it is submitted. -/
theorem resetAll_drops_accepted :
    ¬ RescanSound sampleReader [] (acceptedDb sampleReader.chainId) := by
  intro sound
  have nothing :=
    (pending_kept_iff sampleReader.chainId
      (acceptedDb sampleReader.chainId)).mp sound.pending
  exact nothing (acceptedRow sampleReader.chainId)
    (List.mem_singleton_self _) rfl rfl

end Bam
