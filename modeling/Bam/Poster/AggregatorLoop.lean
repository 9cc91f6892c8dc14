import Bam.Poster.Submit
import Bam.Sdk.Message
import Bam.Store.Nonces

namespace Bam

/-!
# The aggregator loop

The store transactions around a submission: the snapshot of the pending pools
before it, and the confirm transaction after its inclusion.
-/

/-- `pendingRowToDecoded`. -/
def pendingRowToDecoded (row : StoreTxnPendingRow) : DecodedMessage where
  sender := row.sender
  nonce := row.nonce
  contents := row.contents
  contentTag := row.contentTag
  signature := row.signature
  messageHash := row.messageHash
  ingestedAt := some row.ingestedAt

/-- The pools a tick reads, tag by tag, in one transaction. -/
def snapshotPools
    (store : Store) :
    List Bytes32 → Except StoreError PoolView
  | [] => .ok fun _ => []
  | tag :: rest =>
      match store.listPendingByTag tag with
      | .error error => .error error
      | .ok rows =>
          match snapshotPools store rest with
          | .error error => .error error
          | .ok pool =>
              .ok fun other =>
                if other = tag then rows.map pendingRowToDecoded
                else pool other

structure AggregatorLoopOptions where
  chainId : Nat
  reorgWindowBlocks : Nat
  deriving Repr, DecidableEq

/-- What the confirm transaction throws. -/
inductive ConfirmError where
  /-- `computeMessageId`: the nonce does not fit a `uint64`. -/
  | messageId (nonce : Nat)
  | store (error : StoreError)
  deriving Repr, DecidableEq

/-- The snapshot of an included entry, from a message index on. -/
def entrySnapshot
    (keccak256 : Bytes → Bytes32)
    (contentTag batchContentHash : Bytes32) :
    Nat → List DecodedMessage →
      Except ConfirmError (List BatchMessageSnapshotEntry)
  | _, [] => .ok []
  | index, message :: rest =>
      match computeMessageId keccak256 message.sender contentTag
          message.nonce batchContentHash with
      | none => .error (.messageId message.nonce)
      | some messageId =>
          match entrySnapshot keccak256 contentTag batchContentHash
              (index + 1) rest with
          | .error error => .error error
          | .ok later =>
              .ok (
                { sender := message.sender
                  nonce := message.nonce
                  messageId := messageId
                  messageIndexWithinBatch := index
                  messageHash := message.messageHash } :: later)

/-- The batch row of an included entry. -/
def confirmedBatch
    (opts : AggregatorLoopOptions)
    (outcome : PackedSubmitIncluded)
    (submittedAt : Int)
    (contentTag : Bytes32)
    (snapshot : List BatchMessageSnapshotEntry) : BatchRow where
  txHash := outcome.txHash
  chainId := opts.chainId
  contentTag := contentTag
  blobVersionedHash := outcome.blobVersionedHash
  batchContentHash := outcome.blobVersionedHash
  blockNumber := some outcome.blockNumber
  txIndex := some outcome.txIndex
  status := .confirmed
  replacedByTxHash := none
  submittedAt := some submittedAt
  invalidatedAt := none
  submitter := some outcome.submitter
  l1IncludedAtUnixSec := none
  messageSnapshot := snapshot

/-- The message row of an included message, over the row it replaces. -/
def confirmedMessage
    (opts : AggregatorLoopOptions)
    (outcome : PackedSubmitIncluded)
    (contentTag : Bytes32)
    (index : Nat)
    (message : DecodedMessage)
    (messageId : Bytes32)
    (row : MessageRow) : MessageRow where
  messageId := some messageId
  sender := message.sender
  nonce := message.nonce
  contentTag := contentTag
  contents := message.contents
  signature := message.signature
  messageHash := message.messageHash
  status := .confirmed
  batchRef := some outcome.txHash
  chainId := some opts.chainId
  ingestedAt := row.ingestedAt
  ingestSeq := row.ingestSeq
  blockNumber := some outcome.blockNumber
  txIndex := some outcome.txIndex
  messageIndexWithinBatch := some index

/-- The message loop of an included entry, from a message index on. -/
def confirmMessages
    (keccak256 : Bytes → Bytes32)
    (opts : AggregatorLoopOptions)
    (outcome : PackedSubmitIncluded)
    (contentTag : Bytes32) :
    Nat → List DecodedMessage → Store → Except ConfirmError Store
  | _, [], store => .ok store
  | index, message :: rest, store =>
      match store.getBySenderNonce message.sender message.nonce with
      | .error error => .error (.store error)
      | .ok none =>
          confirmMessages keccak256 opts outcome contentTag (index + 1)
            rest store
      | .ok (some row) =>
          match computeMessageId keccak256 message.sender contentTag
              message.nonce outcome.blobVersionedHash with
          | none => .error (.messageId message.nonce)
          | some messageId =>
              match store.upsertObserved
                  (confirmedMessage opts outcome contentTag index message
                    messageId row) with
              | .error error => .error (.store error)
              | .ok next =>
                  confirmMessages keccak256 opts outcome contentTag
                    (index + 1) rest next

/-- The loop that chains reorged batches to their replacement. -/
def chainReplaced
    (txHash : Bytes32)
    (includedHashes : List Bytes32) :
    List BatchRow → Store → Except StoreError Store
  | [], store => .ok store
  | batch :: rest, store =>
      if batch.replacedByTxHash ≠ none then
        chainReplaced txHash includedHashes rest store
      else if batch.messageSnapshot.any fun entry =>
          entry.messageHash ∈ includedHashes then
        match store.updateBatchStatus batch.chainId batch.txHash
            batch.contentTag .reorged
            { replacedByTxHash := some txHash } with
        | .error error => .error error
        | .ok next => chainReplaced txHash includedHashes rest next
      else chainReplaced txHash includedHashes rest store

/-- The reorged batches a submission may replace. -/
def replaceableQuery
    (opts : AggregatorLoopOptions)
    (outcome : PackedSubmitIncluded)
    (contentTag : Bytes32) : BatchesQuery where
  contentTag := some contentTag
  chainId := some opts.chainId
  status := some .reorged
  sinceBlock :=
    some (max 0 ((outcome.blockNumber : Int) - opts.reorgWindowBlocks))

/-- The writes for one included entry. -/
def confirmEntry
    (keccak256 : Bytes → Bytes32)
    (opts : AggregatorLoopOptions)
    (outcome : PackedSubmitIncluded)
    (submittedAt : Int)
    (entry : PackedSubmitIncludedEntry)
    (store : Store) : Except ConfirmError Store :=
  match entrySnapshot keccak256 entry.contentTag
      outcome.blobVersionedHash 0 entry.messages with
  | .error error => .error error
  | .ok snapshot =>
      match confirmMessages keccak256 opts outcome entry.contentTag 0
          entry.messages
          (store.upsertBatch
            (confirmedBatch opts outcome submittedAt entry.contentTag
              snapshot)) with
      | .error error => .error error
      | .ok observed =>
          match chainReplaced outcome.txHash
              (snapshot.map BatchMessageSnapshotEntry.messageHash)
              (observed.listBatches
                (replaceableQuery opts outcome entry.contentTag))
              observed with
          | .error error => .error (.store error)
          | .ok next => .ok next

/-- The writes for the included entries, one after the other. -/
def confirmEntries
    (keccak256 : Bytes → Bytes32)
    (opts : AggregatorLoopOptions)
    (outcome : PackedSubmitIncluded)
    (submittedAt : Int) :
    List PackedSubmitIncludedEntry → Store → Except ConfirmError Store
  | [], store => .ok store
  | entry :: rest, store =>
      match confirmEntry keccak256 opts outcome submittedAt entry
          store with
      | .error error => .error error
      | .ok next =>
          confirmEntries keccak256 opts outcome submittedAt rest next

/-- The confirm transaction. -/
def confirmIncluded
    (keccak256 : Bytes → Bytes32)
    (opts : AggregatorLoopOptions)
    (store : Store)
    (outcome : PackedSubmitIncluded)
    (submittedAt : Int) : Except ConfirmError Store :=
  confirmEntries keccak256 opts outcome submittedAt outcome.entries store

/-- The message slot of a pending message. -/
def DecodedMessage.key (message : DecodedMessage) : MessageKey :=
  (message.sender, message.nonce)

/-- What is left of a batch row when the link to its replacement is dropped. -/
def BatchRow.withoutReplacement (batch : BatchRow) : BatchRow :=
  { batch with replacedByTxHash := none }

/-- A pool holds exactly the pending rows of its tag. -/
theorem mem_snapshotPools
    {store : Store}
    {tags : List Bytes32}
    {pool : PoolView}
    (read : snapshotPools store tags = .ok pool)
    {tag : Bytes32}
    {message : DecodedMessage}
    (member : message ∈ pool tag) :
    tag ∈ tags ∧
      ∃ row ∈ store.messages.rows,
        row.contentTag = tag ∧
        row.status = .pending ∧
        message.key = row.key ∧
        message.contentTag = row.contentTag ∧
        message.contents = row.contents ∧
        message.signature = row.signature ∧
        message.messageHash = row.messageHash ∧
        message.ingestedAt = row.ingestedAt := by
  induction tags generalizing pool with
  | nil =>
      cases read
      cases member
  | cons first rest inductionHypothesis =>
      rw [snapshotPools] at read
      split at read
      · cases read
      rename_i rows listed
      split at read
      · cases read
      rename_i later readRest
      cases read
      by_cases isFirst : tag = first
      · simp only [if_pos isFirst] at member
        obtain ⟨pending, isPending, rfl⟩ := List.mem_map.mp member
        obtain ⟨row, isRow, mapped⟩ :=
          Store.exists_of_mem_mapM listed isPending
        obtain ⟨inTable, ofTag, status⟩ := Store.mem_pendingRows.mp isRow
        obtain ⟨sameTag, sameSender, sameNonce, sameContents,
          sameSignature, sameHash, sameTime, -⟩ := mapPending_ok mapped
        refine ⟨isFirst ▸ List.mem_cons_self, row, inTable,
          isFirst ▸ ofTag, status, ?_, sameTag, sameContents,
          sameSignature, sameHash, sameTime⟩
        exact Prod.ext sameSender sameNonce
      · simp only [if_neg isFirst] at member
        obtain ⟨tagMember, facts⟩ :=
          inductionHypothesis readRest member
        exact ⟨List.mem_cons_of_mem first tagMember, facts⟩

@[simp] theorem key_confirmedMessage
    (opts : AggregatorLoopOptions)
    (outcome : PackedSubmitIncluded)
    (contentTag : Bytes32)
    (index : Nat)
    (message : DecodedMessage)
    (messageId : Bytes32)
    (row : MessageRow) :
    (confirmedMessage opts outcome contentTag index message messageId
      row).key = message.key :=
  rfl

section Confirm

variable {keccak256 : Bytes → Bytes32}
variable {opts : AggregatorLoopOptions}
variable {outcome : PackedSubmitIncluded}

/-- What an iteration of the message loop does: nothing for a message without a
row, and otherwise it observes the confirmed row of the message. -/
theorem confirmMessages_cons
    {contentTag : Bytes32}
    {index : Nat}
    {message : DecodedMessage}
    {rest : List DecodedMessage}
    {store next : Store}
    (confirmed :
      confirmMessages keccak256 opts outcome contentTag index
        (message :: rest) store = .ok next) :
    ∃ middle,
      confirmMessages keccak256 opts outcome contentTag (index + 1)
          rest middle = .ok next ∧
        ((middle = store ∧ store.message? message.key = none) ∨
          ∃ row messageId,
            store.message? message.key = some row ∧
            store.upsertObserved
                (confirmedMessage opts outcome contentTag index message
                  messageId row) = .ok middle) := by
  rw [confirmMessages] at confirmed
  unfold Store.getBySenderNonce at confirmed
  by_cases inRange : message.nonce ≤ MAX_NONCE
  · rw [if_pos inRange] at confirmed
    cases found : store.message? (message.sender, message.nonce) with
    | none =>
        rw [found] at confirmed
        exact ⟨store, confirmed, .inl ⟨rfl, found⟩⟩
    | some row =>
        rw [found] at confirmed
        dsimp only at confirmed
        split at confirmed
        · cases confirmed
        rename_i messageId identified
        split at confirmed
        · cases confirmed
        rename_i middle observed
        exact ⟨middle, confirmed,
          .inr ⟨row, messageId, found, observed⟩⟩
  · rw [if_neg inRange] at confirmed
    cases confirmed

theorem batches_confirmMessages
    {contentTag : Bytes32}
    {index : Nat}
    {messages : List DecodedMessage}
    {store next : Store}
    (confirmed :
      confirmMessages keccak256 opts outcome contentTag index messages
        store = .ok next) :
    next.batches = store.batches := by
  induction messages generalizing index store with
  | nil =>
      cases confirmed
      rfl
  | cons message rest inductionHypothesis =>
      obtain ⟨middle, later, ⟨rfl, -⟩ | ⟨row, messageId, -, observed⟩⟩ :=
        confirmMessages_cons confirmed
      · exact inductionHypothesis later
      · exact (inductionHypothesis later).trans
          (Store.batches_upsertObserved observed)

theorem nonces_confirmMessages
    {contentTag : Bytes32}
    {index : Nat}
    {messages : List DecodedMessage}
    {store next : Store}
    (confirmed :
      confirmMessages keccak256 opts outcome contentTag index messages
        store = .ok next) :
    next.nonces = store.nonces := by
  induction messages generalizing index store with
  | nil =>
      cases confirmed
      rfl
  | cons message rest inductionHypothesis =>
      obtain ⟨middle, later, ⟨rfl, -⟩ | ⟨row, messageId, -, observed⟩⟩ :=
        confirmMessages_cons confirmed
      · exact inductionHypothesis later
      · exact (inductionHypothesis later).trans
          (Store.nonces_upsertObserved observed)

/-- A slot after the message loop: as before, or one of the messages took it,
over an unconfirmed row of the same message. -/
theorem message?_confirmMessages
    {contentTag : Bytes32}
    {index : Nat}
    {messages : List DecodedMessage}
    {store next : Store}
    (confirmed :
      confirmMessages keccak256 opts outcome contentTag index messages
        store = .ok next)
    (key : MessageKey) :
    next.message? key = store.message? key ∨
      ∃ message ∈ messages, ∃ position messageId old,
        message.key = key ∧
        store.message? key = some old ∧
        old.messageHash = message.messageHash ∧
        old.status ≠ .confirmed ∧
        next.message? key =
          some (confirmedMessage opts outcome contentTag position
            message messageId old) := by
  induction messages generalizing index store with
  | nil =>
      cases confirmed
      exact .inl rfl
  | cons message rest inductionHypothesis =>
      obtain ⟨middle, later, ⟨rfl, -⟩ | ⟨row, messageId, found,
        observed⟩⟩ := confirmMessages_cons confirmed
      · rcases inductionHypothesis later with
          same | ⟨other, member, facts⟩
        · exact .inl same
        · exact .inr ⟨other, List.mem_cons_of_mem message member, facts⟩
      · by_cases ofSlot : message.key = key
        · subst ofSlot
          rcases (Store.upsertObserved_ok observed).2 with
            ⟨rfl, -⟩ | ⟨rfl, replaceable⟩
          · rcases inductionHypothesis later with
              same | ⟨other, member, facts⟩
            · exact .inl same
            · exact .inr
                ⟨other, List.mem_cons_of_mem message member, facts⟩
          · obtain ⟨sameHash, unconfirmed⟩ := replaceable row found
            have stored :
                (store.putMessage
                    (confirmedMessage opts outcome contentTag index
                      message messageId row)).message? message.key =
                  some (confirmedMessage opts outcome contentTag index
                    message messageId row) := by
              rw [Store.message?_putMessage, key_confirmedMessage,
                if_pos rfl]
            rcases inductionHypothesis later with
              same | ⟨other, -, position, otherId, old, -, isOld, -,
                oldUnconfirmed, -⟩
            · exact .inr ⟨message, List.mem_cons_self, index, messageId,
                row, rfl, found, sameHash, unconfirmed,
                same.trans stored⟩
            · rw [stored, Option.some.injEq] at isOld
              exact absurd rfl (isOld ▸ oldUnconfirmed)
        · have untouched :=
            Store.message?_upsertObserved_of_ne observed
              (key_confirmedMessage opts outcome contentTag index
                message messageId row ▸ ofSlot)
          rcases inductionHypothesis later with
            same | ⟨other, member, position, otherId, old, ofKey, isOld,
              facts⟩
          · exact .inl (same.trans untouched)
          · exact .inr ⟨other, List.mem_cons_of_mem message member,
              position, otherId, old, ofKey, untouched.symm.trans isOld,
              facts⟩

/-- The message loop keeps confirmed rows. -/
theorem message?_confirmMessages_of_confirmed
    {contentTag : Bytes32}
    {index : Nat}
    {messages : List DecodedMessage}
    {store next : Store}
    {key : MessageKey}
    {row : MessageRow}
    (confirmed :
      confirmMessages keccak256 opts outcome contentTag index messages
        store = .ok next)
    (found : store.message? key = some row)
    (final : row.status = .confirmed) :
    next.message? key = some row := by
  rcases message?_confirmMessages confirmed key with
    same | ⟨-, -, -, -, old, -, isOld, -, unconfirmed, -⟩
  · exact same.trans found
  · rw [found, Option.some.injEq] at isOld
    exact absurd final (isOld ▸ unconfirmed)

/-- The message loop confirms the slot of each of its messages with a row. -/
theorem confirmedSlot_confirmMessages
    {contentTag : Bytes32}
    {index : Nat}
    {messages : List DecodedMessage}
    {store next : Store}
    {message : DecodedMessage}
    {row : MessageRow}
    (confirmed :
      confirmMessages keccak256 opts outcome contentTag index messages
        store = .ok next)
    (member : message ∈ messages)
    (found : store.message? message.key = some row) :
    ∃ after,
      next.message? message.key = some after ∧
        after.status = .confirmed := by
  induction messages generalizing index store row with
  | nil =>
      cases member
  | cons first rest inductionHypothesis =>
      obtain ⟨middle, later, step⟩ := confirmMessages_cons confirmed
      have stillThere :
          ∃ held, middle.message? message.key = some held ∧
            (message = first → held.status = .confirmed) := by
        rcases step with ⟨rfl, absent⟩ | ⟨old, messageId, isOld, observed⟩
        · refine ⟨row, found, ?_⟩
          rintro rfl
          rw [absent] at found
          cases found
        · by_cases ofSlot : first.key = message.key
          · rcases (Store.upsertObserved_ok observed).2 with
              ⟨rfl, existing, isExisting, -, final⟩ | ⟨rfl, -⟩
            · rw [key_confirmedMessage, ofSlot] at isExisting
              exact ⟨existing, isExisting, fun _ => final⟩
            · refine ⟨confirmedMessage opts outcome contentTag index first
                messageId old, ?_, fun _ => rfl⟩
              rw [Store.message?_putMessage, key_confirmedMessage,
                if_pos ofSlot]
          · refine ⟨row, ?_, fun isFirst => absurd (isFirst ▸ rfl) ofSlot⟩
            rw [Store.message?_upsertObserved_of_ne observed ofSlot]
            exact found
      obtain ⟨held, isHeld, firstConfirmed⟩ := stillThere
      rcases List.mem_cons.mp member with isFirst | inRest
      · exact ⟨held,
          message?_confirmMessages_of_confirmed later isHeld
            (firstConfirmed isFirst),
          firstConfirmed isFirst⟩
      · exact inductionHypothesis later inRest isHeld

end Confirm

/-- Chaining leaves the message rows alone. -/
theorem messages_chainReplaced
    {txHash : Bytes32}
    {includedHashes : List Bytes32}
    {batches : List BatchRow}
    {store next : Store}
    (chained :
      chainReplaced txHash includedHashes batches store = .ok next) :
    next.messages = store.messages := by
  induction batches generalizing store with
  | nil =>
      cases chained
      rfl
  | cons batch rest inductionHypothesis =>
      rw [chainReplaced] at chained
      split at chained
      · exact inductionHypothesis chained
      split at chained
      · split at chained
        · cases chained
        rename_i middle updated
        obtain ⟨found, -, rfl⟩ := Store.updateBatchStatus_ok updated
        exact (inductionHypothesis chained).trans
          (Store.messages_putBatch store _)
      · exact inductionHypothesis chained

/-- Chaining over reorged batches changes nothing but replacement links. -/
theorem batch?_chainReplaced
    {txHash : Bytes32}
    {includedHashes : List Bytes32}
    {batches : List BatchRow}
    {store next : Store}
    (reorged :
      ∀ batch ∈ batches, ∀ found,
        store.batch? batch.key = some found →
        found.status = .reorged)
    (chained :
      chainReplaced txHash includedHashes batches store = .ok next)
    (key : BatchKey) :
    (next.batch? key).map BatchRow.withoutReplacement =
      (store.batch? key).map BatchRow.withoutReplacement := by
  induction batches generalizing store with
  | nil =>
      cases chained
      rfl
  | cons batch rest inductionHypothesis =>
      have restReorged := fun other member =>
        reorged other (List.mem_cons_of_mem batch member)
      rw [chainReplaced] at chained
      split at chained
      · exact inductionHypothesis restReorged chained
      split at chained
      · split at chained
        · cases chained
        rename_i middle updated
        obtain ⟨found, isFound, isMiddle⟩ :=
          Store.updateBatchStatus_ok updated
        have foundReorged := reorged batch List.mem_cons_self found isFound
        have sameKey : found.key = batch.key :=
          Store.key_of_batch? isFound
        have step :
            ∀ other,
              (middle.batch? other).map BatchRow.withoutReplacement =
                (store.batch? other).map
                  BatchRow.withoutReplacement := by
          intro other
          rw [isMiddle, Store.batch?_putBatch]
          split
          · rename_i ofKey
            have isOther : batch.key = other := sameKey.symm.trans ofKey
            rw [← isOther, show store.batch? batch.key = some found
              from isFound]
            simp only [Option.map_some, BatchRow.withoutReplacement,
              foundReorged]
          · rfl
        have middleReorged :
            ∀ other ∈ rest, ∀ after,
              middle.batch? other.key = some after →
              after.status = .reorged := by
          intro other member after isAfter
          have same := step other.key
          rw [isAfter, Option.map_some] at same
          obtain ⟨before, isBefore, core⟩ :=
            Option.map_eq_some_iff.mp same.symm
          have beforeReorged :=
            restReorged other member before isBefore
          exact (congrArg BatchRow.status core).symm.trans beforeReorged
        exact (inductionHypothesis middleReorged chained).trans (step key)
      · exact inductionHypothesis restReorged chained

theorem nonces_chainReplaced
    {txHash : Bytes32}
    {includedHashes : List Bytes32}
    {batches : List BatchRow}
    {store next : Store}
    (chained :
      chainReplaced txHash includedHashes batches store = .ok next) :
    next.nonces = store.nonces := by
  induction batches generalizing store with
  | nil =>
      cases chained
      rfl
  | cons batch rest inductionHypothesis =>
      rw [chainReplaced] at chained
      split at chained
      · exact inductionHypothesis chained
      split at chained
      · split at chained
        · cases chained
        rename_i middle updated
        obtain ⟨found, -, rfl⟩ := Store.updateBatchStatus_ok updated
        exact (inductionHypothesis chained).trans rfl
      · exact inductionHypothesis chained

/-- The batches the chaining loop walks are reorged. -/
theorem reorged_of_mem_replaceable
    {opts : AggregatorLoopOptions}
    {outcome : PackedSubmitIncluded}
    {contentTag : Bytes32}
    {store : Store}
    {batch found : BatchRow}
    (member :
      batch ∈ store.listBatches
        (replaceableQuery opts outcome contentTag))
    (isFound : store.batch? batch.key = some found) :
    found.status = .reorged := by
  obtain ⟨inTable, admitted⟩ := Store.mem_listBatches.mp member
  have isBatch : found = batch :=
    Option.some.inj
      (isFound.symm.trans (Table.mem_rows_iff.mp inTable))
  simp only [BatchesQuery.admits, replaceableQuery, Option.all_some,
    Bool.and_eq_true, decide_eq_true_eq] at admitted
  exact isBatch ▸ admitted.1.2

section ConfirmEntries

variable {keccak256 : Bytes → Bytes32}
variable {opts : AggregatorLoopOptions}
variable {outcome : PackedSubmitIncluded}
variable {submittedAt : Int}

/-- The writes for one entry: its batch row, its messages, the chaining. -/
theorem confirmEntry_ok
    {entry : PackedSubmitIncludedEntry}
    {store next : Store}
    (confirmed :
      confirmEntry keccak256 opts outcome submittedAt entry store =
        .ok next) :
    ∃ snapshot observed,
      confirmMessages keccak256 opts outcome entry.contentTag 0
          entry.messages
          (store.upsertBatch
            (confirmedBatch opts outcome submittedAt entry.contentTag
              snapshot)) = .ok observed ∧
        chainReplaced outcome.txHash
            (snapshot.map BatchMessageSnapshotEntry.messageHash)
            (observed.listBatches
              (replaceableQuery opts outcome entry.contentTag))
            observed = .ok next := by
  unfold confirmEntry at confirmed
  split at confirmed
  · cases confirmed
  rename_i snapshot snapshotted
  split at confirmed
  · cases confirmed
  rename_i observed isObserved
  split at confirmed
  · cases confirmed
  rename_i chained isChained
  cases confirmed
  exact ⟨snapshot, observed, isObserved, isChained⟩

/-- The composite key of an included entry's batch row. -/
def entryKey
    (opts : AggregatorLoopOptions)
    (outcome : PackedSubmitIncluded)
    (entry : PackedSubmitIncludedEntry) : BatchKey :=
  (opts.chainId, outcome.txHash, entry.contentTag)

/-- The batch row of an included entry is confirmed at the position of its
receipt. -/
def Store.BatchConfirmed
    (store : Store)
    (outcome : PackedSubmitIncluded)
    (key : BatchKey) : Prop :=
  ∃ batch,
    store.batch? key = some batch ∧
      batch.status = .confirmed ∧
      batch.blockNumber = some outcome.blockNumber ∧
      batch.txIndex = some outcome.txIndex

theorem Store.BatchConfirmed.of_withoutReplacement
    {store next : Store}
    {key : BatchKey}
    (confirmed : store.BatchConfirmed outcome key)
    (same :
      (next.batch? key).map BatchRow.withoutReplacement =
        (store.batch? key).map BatchRow.withoutReplacement) :
    next.BatchConfirmed outcome key := by
  obtain ⟨batch, found, status, block, index⟩ := confirmed
  rw [found, Option.map_some] at same
  obtain ⟨after, isAfter, core⟩ := Option.map_eq_some_iff.mp same
  exact ⟨after, isAfter, (congrArg BatchRow.status core).trans status,
    (congrArg BatchRow.blockNumber core).trans block,
    (congrArg BatchRow.txIndex core).trans index⟩

/-- What confirming one entry does to the batch rows. -/
theorem batch?_confirmEntry
    {entry : PackedSubmitIncludedEntry}
    {store next : Store}
    (confirmed :
      confirmEntry keccak256 opts outcome submittedAt entry store =
        .ok next) :
    next.BatchConfirmed outcome (entryKey opts outcome entry) ∧
      ∀ key ≠ entryKey opts outcome entry,
        (next.batch? key).map BatchRow.withoutReplacement =
          (store.batch? key).map BatchRow.withoutReplacement := by
  obtain ⟨snapshot, observed, isObserved, isChained⟩ :=
    confirmEntry_ok confirmed
  have chained :=
    batch?_chainReplaced
      (fun batch member found isFound =>
        reorged_of_mem_replaceable member isFound) isChained
  have sameBatch :
      ∀ key, observed.batch? key =
        (store.upsertBatch
          (confirmedBatch opts outcome submittedAt entry.contentTag
            snapshot)).batch? key := by
    intro key
    rw [Store.batch?, Store.batch?, batches_confirmMessages isObserved]
  constructor
  · apply Store.BatchConfirmed.of_withoutReplacement _
      (chained (entryKey opts outcome entry))
    refine ⟨store.merged (confirmedBatch opts outcome submittedAt
      entry.contentTag snapshot), ?_, ?_, ?_, ?_⟩
    · rw [sameBatch, Store.batch?_upsertBatch]
      exact if_pos rfl
    · exact store.status_merged _
    · exact store.blockNumber_merged _
    · exact store.txIndex_merged _
  · intro key otherKey
    rw [chained key, sameBatch, Store.batch?_upsertBatch]
    rw [if_neg fun sameKey => otherKey sameKey.symm]

/-- A slot after one entry was confirmed. -/
theorem message?_confirmEntry
    {entry : PackedSubmitIncludedEntry}
    {store next : Store}
    (confirmed :
      confirmEntry keccak256 opts outcome submittedAt entry store =
        .ok next)
    (key : MessageKey) :
    next.message? key = store.message? key ∨
      ∃ message ∈ entry.messages, ∃ position messageId old,
        message.key = key ∧
        store.message? key = some old ∧
        old.messageHash = message.messageHash ∧
        old.status ≠ .confirmed ∧
        next.message? key =
          some (confirmedMessage opts outcome entry.contentTag position
            message messageId old) := by
  obtain ⟨snapshot, observed, isObserved, isChained⟩ :=
    confirmEntry_ok confirmed
  have taken := message?_confirmMessages isObserved key
  rw [Store.message?_upsertBatch] at taken
  have sameRow : next.message? key = observed.message? key := by
    rw [Store.message?, messages_chainReplaced isChained, Store.message?]
  rw [sameRow]
  exact taken

/-- Confirming an entry confirms the slot of each of its messages. -/
theorem confirmedSlot_confirmEntry
    {entry : PackedSubmitIncludedEntry}
    {store next : Store}
    {message : DecodedMessage}
    {row : MessageRow}
    (confirmed :
      confirmEntry keccak256 opts outcome submittedAt entry store =
        .ok next)
    (member : message ∈ entry.messages)
    (found : store.message? message.key = some row) :
    ∃ after,
      next.message? message.key = some after ∧
        after.status = .confirmed := by
  obtain ⟨snapshot, observed, isObserved, isChained⟩ :=
    confirmEntry_ok confirmed
  obtain ⟨after, isAfter, final⟩ :=
    confirmedSlot_confirmMessages isObserved member
      ((Store.message?_upsertBatch _ _ _).trans found)
  refine ⟨after, ?_, final⟩
  rw [Store.message?, messages_chainReplaced isChained]
  exact isAfter

/-- What confirming the entries does to the batch rows. -/
theorem batch?_confirmEntries
    {entries : List PackedSubmitIncludedEntry}
    {store next : Store}
    (confirmed :
      confirmEntries keccak256 opts outcome submittedAt entries store =
        .ok next) :
    (∀ entry ∈ entries,
        next.BatchConfirmed outcome (entryKey opts outcome entry)) ∧
      ∀ key, (∀ entry ∈ entries, key ≠ entryKey opts outcome entry) →
        (next.batch? key).map BatchRow.withoutReplacement =
          (store.batch? key).map BatchRow.withoutReplacement := by
  induction entries generalizing store with
  | nil =>
      cases confirmed
      exact ⟨by simp, fun _ _ => rfl⟩
  | cons first rest inductionHypothesis =>
      rw [confirmEntries] at confirmed
      split at confirmed
      · cases confirmed
      rename_i middle isMiddle
      obtain ⟨restConfirmed, restSame⟩ := inductionHypothesis confirmed
      obtain ⟨firstConfirmed, firstSame⟩ := batch?_confirmEntry isMiddle
      constructor
      · rw [List.forall_mem_cons]
        refine ⟨?_, restConfirmed⟩
        by_cases again :
            ∃ entry ∈ rest,
              entryKey opts outcome first = entryKey opts outcome entry
        · obtain ⟨entry, member, sameKey⟩ := again
          rw [sameKey]
          exact restConfirmed entry member
        · apply firstConfirmed.of_withoutReplacement
          apply restSame
          intro entry member sameKey
          exact again ⟨entry, member, sameKey⟩
      · intro key otherKey
        rw [List.forall_mem_cons] at otherKey
        exact (restSame key otherKey.2).trans (firstSame key otherKey.1)

/-- A slot after the entries were confirmed: as before, or one of their
messages took it, over an unconfirmed row of the same message. -/
theorem message?_confirmEntries
    {entries : List PackedSubmitIncludedEntry}
    {store next : Store}
    (confirmed :
      confirmEntries keccak256 opts outcome submittedAt entries store =
        .ok next)
    (key : MessageKey) :
    next.message? key = store.message? key ∨
      ∃ entry ∈ entries, ∃ message ∈ entry.messages,
        ∃ position messageId old,
          message.key = key ∧
          store.message? key = some old ∧
          old.messageHash = message.messageHash ∧
          old.status ≠ .confirmed ∧
          next.message? key =
            some (confirmedMessage opts outcome entry.contentTag
              position message messageId old) := by
  induction entries generalizing store with
  | nil =>
      cases confirmed
      exact .inl rfl
  | cons first rest inductionHypothesis =>
      rw [confirmEntries] at confirmed
      split at confirmed
      · cases confirmed
      rename_i middle isMiddle
      rcases inductionHypothesis confirmed with
        later | ⟨entry, member, message, ofEntry, position, messageId,
          old, ofKey, isOld, sameHash, unconfirmed, isRow⟩
      · rw [later]
        rcases message?_confirmEntry isMiddle key with
          same | ⟨message, ofEntry, facts⟩
        · exact .inl same
        · exact .inr ⟨first, List.mem_cons_self, message, ofEntry, facts⟩
      · rcases message?_confirmEntry isMiddle key with
          same | ⟨_, -, _, _, _, -, -, -, -, taken⟩
        · exact .inr ⟨entry, List.mem_cons_of_mem first member, message,
            ofEntry, position, messageId, old, ofKey,
            same.symm.trans isOld, sameHash, unconfirmed, isRow⟩
        · rw [taken, Option.some.injEq] at isOld
          exact absurd rfl (isOld ▸ unconfirmed)

/-- Confirming the entries keeps confirmed rows. -/
theorem message?_confirmEntries_of_confirmed
    {entries : List PackedSubmitIncludedEntry}
    {store next : Store}
    {key : MessageKey}
    {row : MessageRow}
    (confirmed :
      confirmEntries keccak256 opts outcome submittedAt entries store =
        .ok next)
    (found : store.message? key = some row)
    (final : row.status = .confirmed) :
    next.message? key = some row := by
  rcases message?_confirmEntries confirmed key with
    same | ⟨-, -, -, -, -, -, old, -, isOld, -, unconfirmed, -⟩
  · exact same.trans found
  · rw [found, Option.some.injEq] at isOld
    exact absurd final (isOld ▸ unconfirmed)

/-- Confirming the entries confirms the slot of each message with a row. -/
theorem confirmedSlot_confirmEntries
    {entries : List PackedSubmitIncludedEntry}
    {store next : Store}
    {entry : PackedSubmitIncludedEntry}
    {message : DecodedMessage}
    {row : MessageRow}
    (confirmed :
      confirmEntries keccak256 opts outcome submittedAt entries store =
        .ok next)
    (member : entry ∈ entries)
    (ofEntry : message ∈ entry.messages)
    (found : store.message? message.key = some row) :
    ∃ after,
      next.message? message.key = some after ∧
        after.status = .confirmed := by
  induction entries generalizing store row with
  | nil =>
      cases member
  | cons first rest inductionHypothesis =>
      rw [confirmEntries] at confirmed
      split at confirmed
      · cases confirmed
      rename_i middle isMiddle
      rcases List.mem_cons.mp member with isFirst | inRest
      · subst isFirst
        obtain ⟨after, isAfter, final⟩ :=
          confirmedSlot_confirmEntry isMiddle ofEntry found
        exact ⟨after,
          message?_confirmEntries_of_confirmed confirmed isAfter final,
          final⟩
      · rcases message?_confirmEntry isMiddle message.key with
          same | ⟨_, -, _, _, _, -, -, -, -, taken⟩
        · exact inductionHypothesis confirmed inRest (same.trans found)
        · exact inductionHypothesis confirmed inRest taken

/-- Confirming the entries leaves the nonce tracker alone. -/
theorem nonces_confirmEntries
    {entries : List PackedSubmitIncludedEntry}
    {store next : Store}
    (confirmed :
      confirmEntries keccak256 opts outcome submittedAt entries store =
        .ok next) :
    next.nonces = store.nonces := by
  induction entries generalizing store with
  | nil =>
      cases confirmed
      rfl
  | cons first rest inductionHypothesis =>
      rw [confirmEntries] at confirmed
      split at confirmed
      · cases confirmed
      rename_i middle isMiddle
      obtain ⟨snapshot, observed, isObserved, isChained⟩ :=
        confirmEntry_ok isMiddle
      rw [inductionHypothesis confirmed, nonces_chainReplaced isChained,
        nonces_confirmMessages isObserved, Store.nonces_upsertBatch]

end ConfirmEntries

end Bam
