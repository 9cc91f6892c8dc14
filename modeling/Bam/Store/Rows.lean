import Bam.Lib.Table
import Bam.Sdk.Types

namespace Bam

/-!
# Rows of the shared store

The row types of `bam-store` and the tables of its schema.  A message row is
keyed by `(sender, nonce)` and a batch row by `(chainId, txHash, contentTag)`,
as the primary keys of the DDL have it.  The nonce column holds the fixed-width
decimal text of a `uint64`; here it is the number itself.
-/

/-- Lifecycle of a message row. -/
inductive MessageStatus where
  | pending
  | submitted
  | confirmed
  | reorged
  deriving Repr, DecidableEq

/-- Lifecycle of a batch row. -/
inductive BatchStatus where
  | pending_tx
  | confirmed
  | reorged
  deriving Repr, DecidableEq

/-- A row the Poster's ingest inserts. -/
structure StoreTxnPendingRow where
  contentTag : Bytes32
  sender : Address
  nonce : Nat
  contents : Bytes
  signature : Bytes
  messageHash : Bytes32
  chainId : Nat
  ingestedAt : Int
  ingestSeq : Nat
  deriving Repr, DecidableEq

/-- A row of the `messages` table. -/
structure MessageRow where
  messageId : Option Bytes32
  sender : Address
  nonce : Nat
  contentTag : Bytes32
  contents : Bytes
  signature : Bytes
  messageHash : Bytes32
  status : MessageStatus
  batchRef : Option Bytes32
  chainId : Option Nat
  ingestedAt : Option Int
  ingestSeq : Option Nat
  blockNumber : Option Nat
  txIndex : Option Nat
  messageIndexWithinBatch : Option Nat
  deriving Repr, DecidableEq

/-- Primary key of `messages`. -/
abbrev MessageKey := Address × Nat

/-- The primary key of a message row. -/
def MessageRow.key (row : MessageRow) : MessageKey :=
  (row.sender, row.nonce)

/-- One message of a batch's frozen snapshot. -/
structure BatchMessageSnapshotEntry where
  sender : Address
  nonce : Nat
  messageId : Bytes32
  messageIndexWithinBatch : Nat
  messageHash : Bytes32
  deriving Repr, DecidableEq

/-- The message slot a snapshot entry names. -/
def BatchMessageSnapshotEntry.key
    (entry : BatchMessageSnapshotEntry) : MessageKey :=
  (entry.sender, entry.nonce)

/-- A row of the `batches` table. -/
structure BatchRow where
  txHash : Bytes32
  chainId : Nat
  contentTag : Bytes32
  blobVersionedHash : Bytes32
  batchContentHash : Bytes32
  blockNumber : Option Nat
  txIndex : Option Nat
  status : BatchStatus
  replacedByTxHash : Option Bytes32
  submittedAt : Option Int
  invalidatedAt : Option Int
  submitter : Option Address
  l1IncludedAtUnixSec : Option Nat
  messageSnapshot : List BatchMessageSnapshotEntry
  deriving Repr, DecidableEq

/-- Primary key of `batches`. -/
abbrev BatchKey := Nat × Bytes32 × Bytes32

/-- The primary key of a batch row. -/
def BatchRow.key (row : BatchRow) : BatchKey :=
  (row.chainId, row.txHash, row.contentTag)

/-- A row of the `tag_seq` table. -/
structure TagSeqRow where
  contentTag : Bytes32
  lastSeq : Nat
  deriving Repr, DecidableEq

/-- A row of the `nonces` table: the last nonce ingest accepted. -/
structure NonceTrackerRow where
  sender : Address
  lastNonce : Nat
  lastMessageHash : Bytes32
  deriving Repr, DecidableEq

/-- The tables Poster and Reader share. -/
structure Store where
  messages : Table MessageKey MessageRow MessageRow.key
  batches : Table BatchKey BatchRow BatchRow.key
  tagSeq : Table Bytes32 TagSeqRow TagSeqRow.contentTag
  nonces : Table Address NonceTrackerRow NonceTrackerRow.sender

/-- A freshly bootstrapped store. -/
def Store.empty : Store where
  messages := Table.empty
  batches := Table.empty
  tagSeq := Table.empty
  nonces := Table.empty

/-- Errors a store operation throws; each one rolls its transaction back. -/
inductive StoreError where
  /-- `NonceCodecError`: the nonce does not fit a `uint64`. -/
  | nonceOutOfRange (nonce : Nat)
  /-- `DuplicateMessageError`: a live row holds the slot. -/
  | duplicateMessage (sender : Address) (nonce : Nat)
  /-- `upsertObserved`: the slot's row has another message hash. -/
  | messageHashConflict
  /-- `mapPending`: a pending row lacks its ingest metadata. -/
  | nullIngestMetadata (sender : Address) (nonce : Nat)
  /-- `markReorged`: no batch row to mark. -/
  | markReorgedNoBatch (chainId : Nat) (txHash : Bytes32)
  /-- `updateBatchStatus`: no batch row to update. -/
  | updateBatchStatusNoBatch
      (chainId : Nat) (txHash contentTag : Bytes32)
  deriving Repr, DecidableEq

namespace Store

/-- The message row of a slot. -/
def message? (store : Store) (key : MessageKey) : Option MessageRow :=
  store.messages.get? key

/-- The batch row under a composite key. -/
def batch? (store : Store) (key : BatchKey) : Option BatchRow :=
  store.batches.get? key

@[simp] theorem message?_empty
    (key : MessageKey) :
    empty.message? key = none :=
  rfl

@[simp] theorem batch?_empty
    (key : BatchKey) :
    empty.batch? key = none :=
  rfl

/-- A message row found under a slot is the row of that slot. -/
theorem key_of_message?
    {store : Store}
    {key : MessageKey}
    {row : MessageRow}
    (found : store.message? key = some row) :
    row.key = key :=
  Table.key_of_get? found

/-- A batch row found under a key has that key. -/
theorem key_of_batch?
    {store : Store}
    {key : BatchKey}
    {row : BatchRow}
    (found : store.batch? key = some row) :
    row.key = key :=
  Table.key_of_get? found

end Store

end Bam
