import Bam.Lib.ExceptLoops
import Bam.Store.Batches
import Bam.Store.Listing

namespace Bam

/-!
# The Poster's submitted batches

`/submitted` lists the batch rows the Poster wrote, newest block first, each
with the message rows its snapshot names.  The limit counts the batches of the
answer, not the rows that are read.
-/

/-- A limit as a JavaScript number. -/
inductive LimitNumber where
  | integer (value : Int)
  /-- A fraction, an infinity or `NaN`. -/
  | other
  deriving Repr, DecidableEq

structure SubmittedBatchesQuery where
  contentTag : Option Bytes32
  sinceBlock : Option Int
  limit : Option LimitNumber
  deriving Repr, DecidableEq

inductive SubmittedBatchStatus where
  | pending
  | included
  | reorged
  | resubmitted
  deriving Repr, DecidableEq

structure SubmittedBatchMessage where
  sender : Address
  nonce : Nat
  contents : Bytes
  signature : Bytes
  messageHash : Bytes32
  messageId : Option Bytes32
  deriving Repr, DecidableEq

structure SubmittedBatch where
  txHash : Bytes32
  contentTag : Bytes32
  blobVersionedHash : Bytes32
  batchContentHash : Bytes32
  blockNumber : Option Nat
  status : SubmittedBatchStatus
  replacedByTxHash : Option Bytes32
  submittedAt : Int
  invalidatedAt : Option Int
  messages : List SubmittedBatchMessage
  deriving Repr, DecidableEq

structure SnapshotJoinRow where
  row : Option MessageRow
  messageIdAtConfirm : Bytes32
  messageIdxWithinBatch : Nat
  deriving Repr, DecidableEq

/-- What `listSubmittedBatches` throws. -/
inductive ListSubmittedError where
  | limit
  | store (error : StoreError)
  deriving Repr, DecidableEq

def readSnapshotMessages
    (store : Store)
    (batch : BatchRow) : Except StoreError (List SnapshotJoinRow) :=
  batch.messageSnapshot.mapM fun entry =>
    (store.getBySenderNonce entry.sender entry.nonce).map fun row =>
      { row := row
        messageIdAtConfirm := entry.messageId
        messageIdxWithinBatch := entry.messageIndexWithinBatch }

def batchToOldStatus (batch : BatchRow) : SubmittedBatchStatus :=
  match batch.status with
  | .pending_tx => .pending
  | .confirmed => .included
  | .reorged =>
      if batch.replacedByTxHash ≠ none then .resubmitted else .reorged

/-- A round of the loop of `mapBatch`; a deleted row is skipped. -/
def mapJoinRow
    (reorged : Bool)
    (joined : SnapshotJoinRow) : Option SubmittedBatchMessage :=
  joined.row.map fun row =>
    { sender := row.sender
      nonce := row.nonce
      contents := row.contents
      signature := row.signature
      messageHash := row.messageHash
      messageId :=
        if reorged then none else some joined.messageIdAtConfirm }

def mapBatch
    (batch : BatchRow)
    (submittedAt : Int)
    (msgs : List SnapshotJoinRow) : SubmittedBatch where
  txHash := batch.txHash
  contentTag := batch.contentTag
  blobVersionedHash := batch.blobVersionedHash
  batchContentHash := batch.batchContentHash
  blockNumber := batch.blockNumber
  status := batchToOldStatus batch
  replacedByTxHash := batch.replacedByTxHash
  submittedAt := submittedAt
  invalidatedAt := batch.invalidatedAt
  messages :=
    (Table.orderBy
      (fun joined => [Int.ofNat joined.messageIdxWithinBatch])
      msgs).filterMap
        (mapJoinRow
          (batchToOldStatus batch = .reorged ∨
            batchToOldStatus batch = .resubmitted))

/-- The loop over the listed rows; it stops at the limit before it reads the
next snapshot. -/
def collectSubmitted
    (store : Store)
    (limit : Option Nat) :
    List BatchRow → List SubmittedBatch →
      Except StoreError (List SubmittedBatch)
  | [], out => .ok out
  | batch :: rest, out =>
      if limit.any fun limit => limit ≤ out.length then .ok out
      else
        match batch.submittedAt with
        | none => collectSubmitted store limit rest out
        | some submittedAt =>
            match readSnapshotMessages store batch with
            | .error error => .error error
            | .ok msgs =>
                collectSubmitted store limit rest
                  (out ++ [mapBatch batch submittedAt msgs])

/-- The query for the rows; the limit is not passed on. -/
def SubmittedBatchesQuery.rows
    (query : SubmittedBatchesQuery)
    (chainId : Nat) : BatchesQuery where
  contentTag := query.contentTag
  chainId := some chainId
  status := none
  sinceBlock := query.sinceBlock

/-- The limit of the query, where it is a count. -/
def SubmittedBatchesQuery.limit?
    (query : SubmittedBatchesQuery) : Option (Option Nat) :=
  match query.limit with
  | none => some none
  | some .other => none
  | some (.integer value) =>
      if value < 0 then none else some (some value.toNat)

def listSubmittedBatches
    (store : Store)
    (chainId : Nat)
    (query : SubmittedBatchesQuery) :
    Except ListSubmittedError (List SubmittedBatch) :=
  match query.limit? with
  | none => .error .limit
  | some limit =>
      match collectSubmitted store limit
          (store.listBatches (query.rows chainId)) [] with
      | .error error => .error (.store error)
      | .ok out => .ok out

/-- The rows the Poster wrote. -/
def BatchRow.isSubmitted (batch : BatchRow) : Bool :=
  batch.submittedAt.isSome

/-- The row is listed as the given batch. -/
def ListedAs
    (store : Store)
    (batch : BatchRow)
    (listed : SubmittedBatch) : Prop :=
  ∃ submittedAt msgs,
    batch.submittedAt = some submittedAt ∧
      readSnapshotMessages store batch = .ok msgs ∧
      listed = mapBatch batch submittedAt msgs

/-- Where all snapshots can be read, the loop lists the submitted rows up to the
limit. -/
theorem collectSubmitted_eq
    {store : Store}
    {limit : Option Nat}
    {report : BatchRow → SubmittedBatch}
    {batches : List BatchRow}
    (readable :
      ∀ batch ∈ batches,
        batch.isSubmitted → ListedAs store batch (report batch))
    {out : List SubmittedBatch}
    (below : limit.all fun limit => out.length ≤ limit) :
    collectSubmitted store limit batches out =
      .ok (limited limit
        (out ++ (batches.filter BatchRow.isSubmitted).map report)) := by
  induction batches generalizing out with
  | nil =>
      cases limit with
      | none =>
          simp [collectSubmitted, limited]
      | some limit =>
          have fits : out.length ≤ limit := by simpa using below
          simp [collectSubmitted, limited, List.take_of_length_le fits]
  | cons batch rest inductionHypothesis =>
      rw [List.forall_mem_cons] at readable
      rw [collectSubmitted]
      split
      · rename_i reached
        cases limit with
        | none =>
            cases reached
        | some limit =>
            have full : out.length = limit :=
              Nat.le_antisymm (by simpa using below) (by simpa using reached)
            simp [limited, ← full]
      · rename_i unreached
        cases submitted : batch.submittedAt with
        | none =>
            have unsubmitted : batch.isSubmitted = false := by
              simp [BatchRow.isSubmitted, submitted]
            rw [inductionHypothesis readable.2 below,
              List.filter_cons_of_neg (by simp [unsubmitted])]
        | some submittedAt =>
            have isSubmitted : batch.isSubmitted = true := by
              simp [BatchRow.isSubmitted, submitted]
            obtain ⟨_, msgs, same, read, listed⟩ :=
              readable.1 isSubmitted
            cases submitted.symm.trans same
            have room :
                limit.all fun limit =>
                  (out ++ [report batch]).length ≤ limit := by
              cases limit with
              | none =>
                  rfl
              | some limit =>
                  simp only [Option.any_some, decide_eq_true_eq,
                    not_le] at unreached
                  simpa using Nat.succ_le_of_lt unreached
            simp only [read]
            rw [← listed, inductionHypothesis readable.2 room,
              List.filter_cons_of_pos isSubmitted, List.map_cons,
              List.append_assoc]
            rfl

/-- The answer of a store whose snapshots can be read: the limit only cuts it
off. -/
theorem listSubmittedBatches_eq
    {store : Store}
    {chainId : Nat}
    {query : SubmittedBatchesQuery}
    {limit : Option Nat}
    (counts : query.limit? = some limit)
    {report : BatchRow → SubmittedBatch}
    (readable :
      ∀ batch ∈ store.batches.rows,
        batch.chainId = chainId →
        batch.isSubmitted → ListedAs store batch (report batch)) :
    listSubmittedBatches store chainId query =
      .ok (limited limit
        (((store.listBatches (query.rows chainId)).filter
          BatchRow.isSubmitted).map report)) := by
  have collected :=
    @collectSubmitted_eq store limit report
      (store.listBatches (query.rows chainId))
      (fun batch member => by
        obtain ⟨inTable, admitted⟩ := Store.mem_listBatches.mp member
        refine readable batch inTable ?_
        simp only [BatchesQuery.admits, SubmittedBatchesQuery.rows,
          Option.all_some, Bool.and_eq_true, decide_eq_true_eq] at admitted
        exact admitted.1.1.2)
      [] (by cases limit <;> simp)
  rw [listSubmittedBatches, counts]
  simp only [collected, List.nil_append]

end Bam
