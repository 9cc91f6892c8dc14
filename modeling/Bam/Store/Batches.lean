import Bam.Store.Messages

namespace Bam

/-!
# Batch operations of a store transaction
-/

/--
The row an `upsertBatch` leaves when its key is taken: nulls keep the older
value (`COALESCE`), and an empty snapshot keeps the older snapshot.
-/
def BatchRow.upsertedBy
    (existing row : BatchRow) : BatchRow :=
  { row with
    replacedByTxHash :=
      row.replacedByTxHash.or existing.replacedByTxHash
    submittedAt := row.submittedAt.or existing.submittedAt
    submitter := row.submitter.or existing.submitter
    l1IncludedAtUnixSec :=
      row.l1IncludedAtUnixSec.or existing.l1IncludedAtUnixSec
    messageSnapshot :=
      if row.messageSnapshot = [] then existing.messageSnapshot
      else row.messageSnapshot }

@[simp] theorem BatchRow.key_upsertedBy
    (existing row : BatchRow) :
    (existing.upsertedBy row).key = row.key :=
  rfl

/-- A batch row of one transaction of one chain. -/
def BatchRow.isOf
    (chainId : Nat)
    (txHash : Bytes32)
    (batch : BatchRow) : Bool :=
  batch.chainId = chainId && batch.txHash = txHash

theorem BatchRow.isOf_iff
    {chainId : Nat}
    {txHash : Bytes32}
    {batch : BatchRow} :
    batch.isOf chainId txHash = true ↔
      batch.chainId = chainId ∧ batch.txHash = txHash := by
  simp [BatchRow.isOf]

/-- A confirmed message row of one transaction of one chain. -/
def MessageRow.isConfirmedIn
    (chainId : Nat)
    (txHash : Bytes32)
    (row : MessageRow) : Bool :=
  row.batchRef = some txHash && row.chainId = some chainId &&
    row.status = .confirmed

theorem MessageRow.isConfirmedIn_iff
    {chainId : Nat}
    {txHash : Bytes32}
    {row : MessageRow} :
    row.isConfirmedIn chainId txHash = true ↔
      row.batchRef = some txHash ∧
        row.chainId = some chainId ∧
        row.status = .confirmed := by
  simp [MessageRow.isConfirmedIn, and_assoc]

/-- A batch row as `markReorged` leaves it. -/
def BatchRow.markedReorged
    (invalidatedAt : Int)
    (batch : BatchRow) : BatchRow :=
  { batch with
    status := .reorged
    invalidatedAt := some invalidatedAt }

@[simp] theorem BatchRow.key_markedReorged
    (invalidatedAt : Int)
    (batch : BatchRow) :
    (batch.markedReorged invalidatedAt).key = batch.key :=
  rfl

/-- A message row as `markReorged` leaves it. -/
def MessageRow.markedReorged (row : MessageRow) : MessageRow :=
  { row with status := .reorged }

@[simp] theorem MessageRow.key_markedReorged
    (row : MessageRow) :
    row.markedReorged.key = row.key :=
  rfl

/-- The filters of `listBatches` its callers here use. -/
structure BatchesQuery where
  contentTag : Option Bytes32
  chainId : Option Nat
  status : Option BatchStatus
  sinceBlock : Option Int

/-- The `WHERE` clause of `listBatches`. -/
def BatchesQuery.admits
    (query : BatchesQuery)
    (row : BatchRow) : Bool :=
  query.contentTag.all (fun tag => row.contentTag = tag) &&
    query.chainId.all (fun chainId => row.chainId = chainId) &&
    query.status.all (fun status => row.status = status) &&
    query.sinceBlock.all fun since =>
      row.blockNumber.any fun block => since ≤ (block : Int)

/-- The optional columns of `updateBatchStatus` its caller here sets. -/
structure BatchStatusPatch where
  replacedByTxHash : Option Bytes32
  deriving Repr, DecidableEq

namespace Store

/-- Store a batch row under its own key. -/
def putBatch
    (store : Store)
    (row : BatchRow) : Store :=
  { store with batches := store.batches.put row }

@[simp] theorem messages_putBatch
    (store : Store)
    (row : BatchRow) :
    (store.putBatch row).messages = store.messages :=
  rfl

@[simp] theorem message?_putBatch
    (store : Store)
    (row : BatchRow)
    (key : MessageKey) :
    (store.putBatch row).message? key = store.message? key :=
  rfl

/-- Storing a batch row changes the row of its own key only. -/
theorem batch?_putBatch
    (store : Store)
    (row : BatchRow)
    (key : BatchKey) :
    (store.putBatch row).batch? key =
      if row.key = key then some row else store.batch? key :=
  Table.get?_put store.batches row key

/-- `upsertBatch`. -/
def upsertBatch
    (store : Store)
    (row : BatchRow) : Store :=
  match store.batch? row.key with
  | none => store.putBatch row
  | some existing => store.putBatch (existing.upsertedBy row)

@[simp] theorem messages_upsertBatch
    (store : Store)
    (row : BatchRow) :
    (store.upsertBatch row).messages = store.messages := by
  unfold upsertBatch
  split <;> rfl

@[simp] theorem message?_upsertBatch
    (store : Store)
    (row : BatchRow)
    (key : MessageKey) :
    (store.upsertBatch row).message? key = store.message? key := by
  simp [message?]

@[simp] theorem nonces_upsertBatch
    (store : Store)
    (row : BatchRow) :
    (store.upsertBatch row).nonces = store.nonces := by
  unfold upsertBatch
  split <;> rfl

/-- The row an `upsertBatch` leaves under a key. -/
theorem batch?_upsertBatch
    (store : Store)
    (row : BatchRow)
    (key : BatchKey) :
    (store.upsertBatch row).batch? key =
      if row.key = key then
        some (match store.batch? row.key with
          | none => row
          | some existing => existing.upsertedBy row)
      else store.batch? key := by
  unfold upsertBatch
  cases store.batch? row.key with
  | none =>
      exact batch?_putBatch store row key
  | some existing =>
      exact batch?_putBatch store (existing.upsertedBy row) key

/-- The row an `upsertBatch` leaves under the key of its argument. -/
def merged
    (store : Store)
    (row : BatchRow) : BatchRow :=
  match store.batch? row.key with
  | none => row
  | some existing => existing.upsertedBy row

@[simp] theorem key_merged
    (store : Store)
    (row : BatchRow) :
    (store.merged row).key = row.key := by
  unfold merged
  split <;> rfl

@[simp] theorem status_merged
    (store : Store)
    (row : BatchRow) :
    (store.merged row).status = row.status := by
  unfold merged
  split <;> rfl

@[simp] theorem blockNumber_merged
    (store : Store)
    (row : BatchRow) :
    (store.merged row).blockNumber = row.blockNumber := by
  unfold merged
  split <;> rfl

@[simp] theorem txIndex_merged
    (store : Store)
    (row : BatchRow) :
    (store.merged row).txIndex = row.txIndex := by
  unfold merged
  split <;> rfl

/-- A snapshot that is not empty replaces the older one. -/
theorem messageSnapshot_merged
    (store : Store)
    {row : BatchRow}
    (recorded : row.messageSnapshot ≠ []) :
    (store.merged row).messageSnapshot = row.messageSnapshot := by
  unfold merged
  split
  · rfl
  · exact if_neg recorded

/-- An empty snapshot leaves the older one. -/
theorem messageSnapshot_merged_nil
    (store : Store)
    {row : BatchRow}
    (unread : row.messageSnapshot = []) :
    (store.merged row).messageSnapshot =
      match store.batch? row.key with
      | none => []
      | some existing => existing.messageSnapshot := by
  unfold merged
  cases store.batch? row.key with
  | none =>
      exact unread
  | some existing =>
      exact if_pos unread

/-- The batch rows after an `upsertBatch`. -/
theorem mem_upsertBatch
    {store : Store}
    {row other : BatchRow} :
    other ∈ (store.upsertBatch row).batches.rows ↔
      other = store.merged row ∨
        (other ∈ store.batches.rows ∧ other.key ≠ row.key) := by
  have isPut :
      store.upsertBatch row = store.putBatch (store.merged row) := by
    unfold upsertBatch merged
    split <;> rfl
  rw [isPut, putBatch, Table.mem_put, key_merged]

/-- `markReorged`: flip every batch row of a transaction, and the confirmed
messages attached to it. -/
def markReorged
    (store : Store)
    (chainId : Nat)
    (txHash : Bytes32)
    (invalidatedAt : Int) : Except StoreError Store :=
  if store.batches.rows.any (BatchRow.isOf chainId txHash) then
    .ok { store with
      batches :=
        store.batches.update (BatchRow.isOf chainId txHash)
          (BatchRow.markedReorged invalidatedAt)
          (BatchRow.key_markedReorged invalidatedAt)
      messages :=
        store.messages.update
          (MessageRow.isConfirmedIn chainId txHash)
          MessageRow.markedReorged
          MessageRow.key_markedReorged }
  else
    .error (.markReorgedNoBatch chainId txHash)

/-- A transaction with a batch row can be marked. -/
theorem markReorged_ok
    {store : Store}
    {chainId : Nat}
    {txHash : Bytes32}
    {batch : BatchRow}
    (invalidatedAt : Int)
    (member : batch ∈ store.batches.rows)
    (ofTx : batch.isOf chainId txHash = true) :
    ∃ next, store.markReorged chainId txHash invalidatedAt = .ok next := by
  have found :
      store.batches.rows.any (BatchRow.isOf chainId txHash) = true :=
    List.any_eq_true.mpr ⟨batch, member, ofTx⟩
  exact ⟨_, by rw [markReorged, if_pos found]⟩

/-- Only a transaction with a batch row can be marked. -/
theorem batch_of_markReorged
    {store next : Store}
    {chainId : Nat}
    {txHash : Bytes32}
    {invalidatedAt : Int}
    (marked :
      store.markReorged chainId txHash invalidatedAt = .ok next) :
    ∃ batch ∈ store.batches.rows,
      batch.isOf chainId txHash = true := by
  unfold markReorged at marked
  split at marked
  · rename_i found
    exact List.any_eq_true.mp found
  · cases marked

/-- The message row of a slot after `markReorged`. -/
theorem message?_markReorged
    {store next : Store}
    {chainId : Nat}
    {txHash : Bytes32}
    {invalidatedAt : Int}
    (marked :
      store.markReorged chainId txHash invalidatedAt = .ok next)
    (key : MessageKey) :
    next.message? key =
      (store.message? key).map fun row =>
        if row.isConfirmedIn chainId txHash then
          row.markedReorged
        else row := by
  unfold markReorged at marked
  split at marked
  · cases marked
    exact Table.get?_update _ _ _
      MessageRow.key_markedReorged key
  · cases marked

/-- The batch row of a key after `markReorged`. -/
theorem batch?_markReorged
    {store next : Store}
    {chainId : Nat}
    {txHash : Bytes32}
    {invalidatedAt : Int}
    (marked :
      store.markReorged chainId txHash invalidatedAt = .ok next)
    (key : BatchKey) :
    next.batch? key =
      (store.batch? key).map fun batch =>
        if batch.isOf chainId txHash then
          batch.markedReorged invalidatedAt
        else batch := by
  unfold markReorged at marked
  split at marked
  · cases marked
    exact Table.get?_update _ _ _
      (BatchRow.key_markedReorged invalidatedAt) key
  · cases marked

/-- The batch rows after `markReorged`. -/
theorem mem_batches_markReorged
    {store next : Store}
    {chainId : Nat}
    {txHash : Bytes32}
    {invalidatedAt : Int}
    (marked :
      store.markReorged chainId txHash invalidatedAt = .ok next)
    {batch : BatchRow} :
    batch ∈ next.batches.rows ↔
      ∃ old ∈ store.batches.rows,
        (if old.isOf chainId txHash then
          old.markedReorged invalidatedAt
        else old) = batch := by
  unfold markReorged at marked
  split at marked
  · cases marked
    exact @Table.mem_update _ _ _ _ _ _
      (BatchRow.key_markedReorged invalidatedAt) _
  · cases marked

/-- `markReorged` leaves the nonce tracker alone. -/
theorem nonces_markReorged
    {store next : Store}
    {chainId : Nat}
    {txHash : Bytes32}
    {invalidatedAt : Int}
    (marked :
      store.markReorged chainId txHash invalidatedAt = .ok next) :
    next.nonces = store.nonces := by
  unfold markReorged at marked
  split at marked
  · cases marked
    rfl
  · cases marked

/-- `updateBatchStatus`. -/
def updateBatchStatus
    (store : Store)
    (chainId : Nat)
    (txHash contentTag : Bytes32)
    (status : BatchStatus)
    (opts : BatchStatusPatch) : Except StoreError Store :=
  match store.batch? (chainId, txHash, contentTag) with
  | none => .error (.updateBatchStatusNoBatch chainId txHash contentTag)
  | some batch =>
      .ok (store.putBatch
        { batch with
          status := status
          replacedByTxHash :=
            opts.replacedByTxHash.or batch.replacedByTxHash })

/-- What a successful `updateBatchStatus` did. -/
theorem updateBatchStatus_ok
    {store next : Store}
    {chainId : Nat}
    {txHash contentTag : Bytes32}
    {status : BatchStatus}
    {opts : BatchStatusPatch}
    (updated :
      store.updateBatchStatus chainId txHash contentTag status opts =
        .ok next) :
    ∃ batch,
      store.batch? (chainId, txHash, contentTag) = some batch ∧
      next = store.putBatch
        { batch with
          status := status
          replacedByTxHash :=
            opts.replacedByTxHash.or batch.replacedByTxHash } := by
  unfold updateBatchStatus at updated
  split at updated
  · cases updated
  · rename_i batch found
    cases updated
    exact ⟨batch, found, rfl⟩

/-- `listBatches`, newest block first. -/
def listBatches
    (store : Store)
    (query : BatchesQuery) : List BatchRow :=
  Table.orderBy
    (fun row =>
      Table.descNullsLast (row.blockNumber.map Int.ofNat) ++
        Table.descNullsLast (row.txIndex.map Int.ofNat) ++
        Table.descNullsLast row.submittedAt)
    (store.batches.select query.admits)

theorem mem_listBatches
    {store : Store}
    {query : BatchesQuery}
    {row : BatchRow} :
    row ∈ store.listBatches query ↔
      row ∈ store.batches.rows ∧ query.admits row = true := by
  simp [listBatches]

/-- `getBatchesByTxHash`, by content tag. -/
def getBatchesByTxHash
    (store : Store)
    (chainId : Nat)
    (txHash : Bytes32) : List BatchRow :=
  Table.orderBy (fun row => [Int.ofNat row.contentTag.toNat])
    (store.batches.select (BatchRow.isOf chainId txHash))

/-- The first batch row of a transaction is the one of its smallest tag. -/
theorem head_getBatchesByTxHash
    {store : Store}
    {chainId : Nat}
    {txHash : Bytes32}
    {batch : BatchRow} :
    (store.getBatchesByTxHash chainId txHash).head? = some batch ↔
      batch ∈ store.batches.rows ∧ batch.isOf chainId txHash = true ∧
        ∀ other ∈ store.batches.rows,
          other.isOf chainId txHash = true →
          batch.contentTag.toNat ≤ other.contentTag.toNat := by
  have members :
      ∀ row, row ∈ store.getBatchesByTxHash chainId txHash ↔
        row ∈ store.batches.rows ∧ row.isOf chainId txHash = true :=
    fun row => Table.mem_orderBy.trans Table.mem_select
  have ordered :
      (store.getBatchesByTxHash chainId txHash).Pairwise
        fun first second =>
          [Int.ofNat first.contentTag.toNat] ≤
            [Int.ofNat second.contentTag.toNat] :=
    List.pairwise_insertionSort
      (fun first second : BatchRow =>
        [Int.ofNat first.contentTag.toNat] ≤
          [Int.ofNat second.contentTag.toNat]) _
  have least :
      ∀ first,
        (store.getBatchesByTxHash chainId txHash).head? = some first →
        ∀ other ∈ store.getBatchesByTxHash chainId txHash,
          first.contentTag.toNat ≤ other.contentTag.toNat := by
    intro first isFirst other member
    obtain ⟨rest, isList⟩ := List.head?_eq_some_iff.mp isFirst
    rw [isList] at member ordered
    rcases List.mem_cons.mp member with rfl | isLater
    · exact Nat.le_refl _
    · have notLess := (List.pairwise_cons.mp ordered).1 other isLater
      exact Nat.le_of_not_lt fun less =>
        not_lt.mpr notLess
          (List.cons_lt_cons_iff.mpr (.inl (Int.ofNat_lt.mpr less)))
  constructor
  · intro isHead
    obtain ⟨stored, ofTx⟩ :=
      (members batch).mp (List.mem_of_head? isHead)
    exact ⟨stored, ofTx, fun other isOther otherOfTx =>
      least batch isHead other ((members other).mpr ⟨isOther, otherOfTx⟩)⟩
  · rintro ⟨stored, ofTx, smallest⟩
    cases isHead :
        (store.getBatchesByTxHash chainId txHash).head? with
    | none =>
        have member := (members batch).mpr ⟨stored, ofTx⟩
        rw [List.head?_eq_none_iff.mp isHead] at member
        cases member
    | some first =>
        obtain ⟨firstStored, firstOfTx⟩ :=
          (members first).mp (List.mem_of_head? isHead)
        have sameTag : first.contentTag = batch.contentTag :=
          BitVec.eq_of_toNat_eq (Nat.le_antisymm
            (least first isHead batch ((members batch).mpr ⟨stored, ofTx⟩))
            (smallest first firstStored firstOfTx))
        obtain ⟨firstChain, firstTx⟩ := BatchRow.isOf_iff.mp firstOfTx
        obtain ⟨batchChain, batchTx⟩ := BatchRow.isOf_iff.mp ofTx
        refine congrArg some (Table.eq_of_key_eq firstStored stored ?_)
        unfold BatchRow.key
        rw [firstChain, firstTx, batchChain, batchTx, sameTag]

end Store

end Bam
