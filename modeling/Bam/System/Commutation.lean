import Bam.Lib.ExceptLoops
import Bam.Poster.AggregatorLoop
import Bam.Reader.Convergence

namespace Bam

/-!
# Confirming and processing one transaction

The Poster's confirm transaction and the Reader's calls for the events of the
same packed transaction, in either order over one store.
-/

/-- The store a call of the Reader leaves; one that throws writes nothing. -/
def readEvent
    (libraries : ReaderLibraries)
    (store : Store)
    (opts : ProcessBatchOptions) : Store :=
  match (processBatch libraries opts store emptyCounters).2 with
  | .ok (next, _) => next
  | .error _ => store

/-- The calls of a Reader one after the other. -/
def readEvents
    (libraries : ReaderLibraries)
    (store : Store)
    (events : List ProcessBatchOptions) : Store :=
  events.foldl (readEvent libraries) store

/-- The same batch rows and the same message rows. -/
structure Store.SameRows (first second : Store) : Prop where
  batches : ∀ key, first.batch? key = second.batch? key
  messages : ∀ key, first.message? key = second.message? key

/-- A call for one of the events of the packed transaction: the event is the
one registered for an entry, and the segment, where it decodes at all, decodes
to the messages packed into it. -/
structure PackedCall
    (libraries : ReaderLibraries)
    (loop : AggregatorLoopOptions)
    (outcome : PackedSubmitIncluded)
    (opts : ProcessBatchOptions)
    (entry : PackedSubmitIncludedEntry) : Prop where
  included : entry ∈ outcome.entries
  chainId : opts.chainId = loop.chainId
  txHash : opts.event.txHash = outcome.txHash
  blockNumber : opts.event.blockNumber = outcome.blockNumber
  txIndex : opts.event.txIndex = outcome.txIndex
  versionedHash : opts.event.versionedHash = outcome.blobVersionedHash
  submitter : opts.event.submitter = outcome.submitter
  contentTag : opts.event.contentTag = entry.contentTag
  decodes :
    ∀ blobBytes usableBytes decoded,
      opts.fetchBlob = some blobBytes →
      extractSegmentBytes blobBytes (opts.event.startFE.getD 0)
          (opts.event.endFE.getD FIELD_ELEMENTS_PER_BLOB) =
        .ok usableBytes →
      decode libraries.decompress opts.event.decoder usableBytes
          (opts.decodeAnswer usableBytes) =
        .ok decoded →
      decoded.messages = entry.messages.map DecodedMessage.toBAMMessage ∧
        decoded.signatures = entry.messages.map DecodedMessage.signature

/-- The messages of the transaction are pending: each has the row ingest
inserted for it. -/
def Store.PendingFor
    (keccak256 : Bytes → Bytes32)
    (outcome : PackedSubmitIncluded)
    (store : Store) : Prop :=
  ∀ entry ∈ outcome.entries, ∀ message ∈ entry.messages,
    computeMessageHash keccak256 message.sender entry.contentTag
        message.nonce message.contents =
      some message.messageHash ∧
    ∃ row,
      store.message? message.key = some row ∧
      row.status = .pending ∧
      row.messageHash = message.messageHash ∧
      row.ingestedAt.isSome ∧
      row.ingestSeq.isSome

section Chaining

variable {txHash : Bytes32} {includedHashes : List Bytes32}

/-- The row of a reorged batch once the chaining loop has passed it. -/
def BatchRow.chained
    (txHash : Bytes32)
    (includedHashes : List Bytes32)
    (batch : BatchRow) : BatchRow :=
  if batch.replacedByTxHash ≠ none then batch
  else if batch.messageSnapshot.any fun entry =>
      entry.messageHash ∈ includedHashes then
    { batch with status := .reorged, replacedByTxHash := some txHash }
  else batch

@[simp] theorem BatchRow.key_chained
    (batch : BatchRow) :
    (batch.chained txHash includedHashes).key = batch.key := by
  rw [BatchRow.chained]
  split
  · rfl
  · split <;> rfl

/-- A round of the chaining loop stores the chained row. -/
theorem chainReplaced_cons
    {batch : BatchRow}
    {rest : List BatchRow}
    {store : Store}
    (present : store.batch? batch.key = some batch) :
    ∃ middle,
      chainReplaced txHash includedHashes (batch :: rest) store =
          chainReplaced txHash includedHashes rest middle ∧
        ∀ key, middle.batch? key =
          if batch.key = key then
            some (batch.chained txHash includedHashes)
          else store.batch? key := by
  have kept :
      ∀ key, store.batch? key =
        if batch.key = key then some batch else store.batch? key := by
    intro key
    split
    · rename_i sameKey
      rw [← sameKey, present]
    · rfl
  rw [chainReplaced, BatchRow.chained]
  split
  · exact ⟨store, rfl, kept⟩
  · split
    · rename_i unreplaced overlaps
      have found :
          store.batch? (batch.chainId, batch.txHash, batch.contentTag) =
            some batch :=
        present
      rw [Store.updateBatchStatus, found]
      exact ⟨_, rfl, fun key => Store.batch?_putBatch _ _ key⟩
    · exact ⟨store, rfl, kept⟩

/-- The chaining loop over rows of the store acts on each of them and on no
other row. -/
theorem chainReplaced_rows
    {batches : List BatchRow}
    {store : Store}
    (distinct : (batches.map BatchRow.key).Nodup)
    (present :
      ∀ batch ∈ batches, store.batch? batch.key = some batch) :
    ∃ next,
      chainReplaced txHash includedHashes batches store = .ok next ∧
        ∀ key, next.batch? key =
          (store.batch? key).map fun batch =>
            if batch ∈ batches then batch.chained txHash includedHashes
            else batch := by
  induction batches generalizing store with
  | nil =>
      refine ⟨store, rfl, ?_⟩
      intro key
      simp
  | cons batch rest inductionHypothesis =>
      rw [List.map_cons, List.nodup_cons] at distinct
      obtain ⟨middle, isRest, rows⟩ :=
        @chainReplaced_cons txHash includedHashes batch rest store
          (present batch List.mem_cons_self)
      have apart : ∀ other ∈ rest, batch.key ≠ other.key := by
        intro other member same
        exact distinct.1 (same ▸ List.mem_map_of_mem member)
      have stillPresent :
          ∀ other ∈ rest, middle.batch? other.key = some other := by
        intro other member
        rw [rows, if_neg (apart other member)]
        exact present other (List.mem_cons_of_mem batch member)
      obtain ⟨next, chained, chainedRows⟩ :=
        inductionHypothesis distinct.2 stillPresent
      refine ⟨next, isRest.trans chained, ?_⟩
      intro key
      rw [chainedRows, rows]
      by_cases sameKey : batch.key = key
      · have notRest :
            batch.chained txHash includedHashes ∉ rest := by
          intro member
          exact apart _ member (BatchRow.key_chained batch).symm
        rw [if_pos sameKey, ← sameKey,
          present batch List.mem_cons_self, Option.map_some,
          Option.map_some, if_neg notRest,
          if_pos List.mem_cons_self]
      · rw [if_neg sameKey]
        cases found : store.batch? key with
        | none =>
            rfl
        | some other =>
            have isOther : other ≠ batch := by
              rintro rfl
              exact sameKey (Store.key_of_batch? found)
            simp [isOther]

/-- The chaining loop over a listing acts on the rows the query admits. -/
theorem chainReplaced_listed
    (query : BatchesQuery)
    (store : Store) :
    ∃ next,
      chainReplaced txHash includedHashes (store.listBatches query)
          store = .ok next ∧
        ∀ key, next.batch? key =
          (store.batch? key).map fun batch =>
            if query.admits batch then batch.chained txHash includedHashes
            else batch := by
  have distinct :
      ((store.listBatches query).map BatchRow.key).Nodup := by
    rw [Store.listBatches,
      ((Table.orderBy_perm _ _).map BatchRow.key).nodup_iff]
    exact store.batches.keysNodup.sublist
      (List.filter_sublist.map BatchRow.key)
  have present :
      ∀ batch ∈ store.listBatches query,
        store.batch? batch.key = some batch := by
    intro batch member
    exact Table.mem_rows_iff.mp (Store.mem_listBatches.mp member).1
  obtain ⟨next, chained, rows⟩ :=
    @chainReplaced_rows txHash includedHashes _ store distinct present
  refine ⟨next, chained, ?_⟩
  intro key
  rw [rows]
  cases found : store.batch? key with
  | none =>
      rfl
  | some batch =>
      have inTable : batch ∈ store.batches.rows :=
        Table.mem_of_get? found
      simp [Store.mem_listBatches, inTable]

end Chaining

section Entry

variable {keccak256 : Bytes → Bytes32}
variable {loop : AggregatorLoopOptions}
variable {outcome : PackedSubmitIncluded}
variable {submittedAt : Int}

/-- `upsertObserved` reads and writes message rows only. -/
theorem upsertObserved_congr
    {first second next : Store}
    {row : MessageRow}
    (same : first.messages = second.messages)
    (observed : first.upsertObserved row = .ok next) :
    ∃ other,
      second.upsertObserved row = .ok other ∧
        other.messages = next.messages ∧
        other.batches = second.batches := by
  have sameSlot : first.message? row.key = second.message? row.key := by
    rw [Store.message?, same, Store.message?]
  rw [Store.upsertObserved] at observed ⊢
  split at observed
  · rename_i inRange
    rw [if_pos inRange, ← sameSlot]
    split at observed
    · cases observed
      exact ⟨_, rfl, by simp [Store.putMessage, same], rfl⟩
    · split at observed
      · cases observed
      · rename_i sameHash
        rw [if_neg sameHash]
        split at observed
        · rename_i confirmed
          cases observed
          rw [if_pos confirmed]
          exact ⟨second, rfl, same.symm, rfl⟩
        · rename_i unconfirmed
          cases observed
          rw [if_neg unconfirmed]
          exact ⟨_, rfl, by simp [Store.putMessage, same], rfl⟩
  · cases observed

/-- The loop over the messages of an entry reads and writes message rows
only. -/
theorem confirmMessages_congr
    {contentTag : Bytes32}
    {index : Nat}
    {messages : List DecodedMessage}
    {first second next : Store}
    (same : first.messages = second.messages)
    (confirmed :
      confirmMessages keccak256 loop outcome contentTag index messages
        first = .ok next) :
    ∃ other,
      confirmMessages keccak256 loop outcome contentTag index messages
          second = .ok other ∧
        other.messages = next.messages ∧
        other.batches = second.batches := by
  induction messages generalizing index first second with
  | nil =>
      cases confirmed
      exact ⟨second, rfl, same.symm, rfl⟩
  | cons message rest inductionHypothesis =>
      have sameSlot :
          first.getBySenderNonce message.sender message.nonce =
            second.getBySenderNonce message.sender message.nonce := by
        rw [Store.getBySenderNonce, Store.message?, same,
          Store.getBySenderNonce, Store.message?]
      rw [confirmMessages] at confirmed ⊢
      rw [← sameSlot]
      split at confirmed
      · cases confirmed
      · exact inductionHypothesis same confirmed
      · split at confirmed
        · cases confirmed
        · split at confirmed
          · cases confirmed
          · rename_i middle observed
            obtain ⟨other, isOther, sameRows, sameBatches⟩ :=
              upsertObserved_congr same observed
            obtain ⟨last, isLast, lastRows, lastBatches⟩ :=
              inductionHypothesis sameRows.symm confirmed
            rw [isOther]
            exact ⟨last, isLast, lastRows,
              lastBatches.trans sameBatches⟩

/-- A batch row the Reader writes for the transaction when it reads no message
out of the segment. -/
structure BatchRow.Unread
    (loop : AggregatorLoopOptions)
    (outcome : PackedSubmitIncluded)
    (row : BatchRow) : Prop where
  chainId : row.chainId = loop.chainId
  txHash : row.txHash = outcome.txHash
  versionedHash : row.blobVersionedHash = outcome.blobVersionedHash
  contentHash : row.batchContentHash = outcome.blobVersionedHash
  blockNumber : row.blockNumber = some outcome.blockNumber
  txIndex : row.txIndex = some outcome.txIndex
  status : row.status = .confirmed
  replacedByTxHash : row.replacedByTxHash = none
  submittedAt : row.submittedAt = none
  invalidatedAt : row.invalidatedAt = none
  submitter : row.submitter = some outcome.submitter
  messageSnapshot : row.messageSnapshot = []

/-- An unread row and the Poster's row of its tag merge alike in either
order. -/
theorem BatchRow.Unread.merge_comm
    {row : BatchRow}
    {snapshot : List BatchMessageSnapshotEntry}
    {store ahead next : Store}
    {contentTag : Bytes32}
    (unread : row.Unread loop outcome)
    (sameTag : row.contentTag = contentTag)
    (isAhead : ahead.batch? row.key = some (store.merged row))
    (isNext :
      next.batch? row.key =
        some (store.merged
          (confirmedBatch loop outcome submittedAt contentTag
            snapshot))) :
    ahead.merged
        (confirmedBatch loop outcome submittedAt contentTag
          snapshot) =
      next.merged row := by
  subst sameTag
  have sameKey :
      (confirmedBatch loop outcome submittedAt row.contentTag
        snapshot).key = row.key := by
    rw [BatchRow.key, BatchRow.key, unread.chainId, unread.txHash]
    rfl
  rw [Store.merged, sameKey, isAhead, Store.merged, Store.merged, isNext,
    Store.merged, sameKey]
  generalize store.batch? row.key = existing?
  clear isAhead isNext sameKey
  cases row
  cases unread
  simp only at *
  subst_vars
  by_cases empty : snapshot = []
  · cases existing? <;>
      simp [BatchRow.upsertedBy, confirmedBatch, empty]
  · cases existing? <;>
      simp [BatchRow.upsertedBy, confirmedBatch, empty]

theorem batch?_upsertBatch_merged
    (store : Store)
    (row : BatchRow)
    (key : BatchKey) :
    (store.upsertBatch row).batch? key =
      if row.key = key then some (store.merged row)
      else store.batch? key :=
  Store.batch?_upsertBatch store row key

/-- One store is another one with an unread row written to it. -/
structure Store.AheadBy
    (row : BatchRow)
    (store ahead : Store) : Prop where
  messages : ahead.messages = store.messages
  batches :
    ∀ key, ahead.batch? key = (store.upsertBatch row).batch? key

/-- What confirming an entry leaves, read off its parts. -/
theorem confirmEntry_rows
    {entry : PackedSubmitIncludedEntry}
    {snapshot : List BatchMessageSnapshotEntry}
    {store observed : Store}
    (snapshotted :
      entrySnapshot keccak256 entry.contentTag outcome.blobVersionedHash 0
        entry.messages = .ok snapshot)
    (isObserved :
      confirmMessages keccak256 loop outcome entry.contentTag 0
          entry.messages
          (store.upsertBatch
            (confirmedBatch loop outcome submittedAt entry.contentTag
              snapshot)) = .ok observed) :
    ∃ next,
      confirmEntry keccak256 loop outcome submittedAt entry store =
          .ok next ∧
        next.messages = observed.messages ∧
        ∀ key, next.batch? key =
          ((store.upsertBatch
              (confirmedBatch loop outcome submittedAt entry.contentTag
                snapshot)).batch? key).map fun batch =>
            if (replaceableQuery loop outcome entry.contentTag).admits
                batch then
              batch.chained outcome.txHash
                (snapshot.map BatchMessageSnapshotEntry.messageHash)
            else batch := by
  obtain ⟨next, chained, rows⟩ :=
    @chainReplaced_listed outcome.txHash
      (snapshot.map BatchMessageSnapshotEntry.messageHash)
      (replaceableQuery loop outcome entry.contentTag) observed
  refine ⟨next, ?_, messages_chainReplaced chained, ?_⟩
  · simp only [confirmEntry, snapshotted, isObserved, chained]
  · intro key
    rw [rows, Store.batch?, batches_confirmMessages isObserved,
      Store.batch?]

/-- The parts of a confirmed entry. -/
theorem confirmEntry_parts
    {entry : PackedSubmitIncludedEntry}
    {store next : Store}
    (confirmed :
      confirmEntry keccak256 loop outcome submittedAt entry store =
        .ok next) :
    ∃ snapshot observed,
      entrySnapshot keccak256 entry.contentTag outcome.blobVersionedHash 0
          entry.messages = .ok snapshot ∧
        confirmMessages keccak256 loop outcome entry.contentTag 0
            entry.messages
            (store.upsertBatch
              (confirmedBatch loop outcome submittedAt entry.contentTag
                snapshot)) = .ok observed := by
  rw [confirmEntry] at confirmed
  split at confirmed
  · cases confirmed
  · rename_i snapshot snapshotted
    split at confirmed
    · cases confirmed
    · rename_i observed isObserved
      exact ⟨snapshot, observed, snapshotted, isObserved⟩

/-- The chaining loop of an entry passes over confirmed rows, -/
theorem chained_of_confirmed
    {contentTag : Bytes32}
    {hashes : List Bytes32}
    {batch : BatchRow}
    (confirmed : batch.status = .confirmed) :
    (if (replaceableQuery loop outcome contentTag).admits batch then
        batch.chained outcome.txHash hashes
      else batch) = batch := by
  apply if_neg
  simp [BatchesQuery.admits, replaceableQuery, confirmed]

/-- and over rows of other tags. -/
theorem chained_of_tag
    {contentTag : Bytes32}
    {hashes : List Bytes32}
    {batch : BatchRow}
    (other : batch.contentTag ≠ contentTag) :
    (if (replaceableQuery loop outcome contentTag).admits batch then
        batch.chained outcome.txHash hashes
      else batch) = batch := by
  apply if_neg
  simp [BatchesQuery.admits, replaceableQuery, other]

/-- Confirming an entry and writing an unread row commute. -/
theorem confirmEntry_ahead
    {entry : PackedSubmitIncludedEntry}
    {row : BatchRow}
    {store ahead next : Store}
    (unread : row.Unread loop outcome)
    (isAhead : store.AheadBy row ahead)
    (confirmed :
      confirmEntry keccak256 loop outcome submittedAt entry store =
        .ok next) :
    ∃ later,
      confirmEntry keccak256 loop outcome submittedAt entry ahead =
          .ok later ∧
        next.AheadBy row later := by
  obtain ⟨snapshot, observed, snapshotted, isObserved⟩ :=
    confirmEntry_parts confirmed
  obtain ⟨other, isOther, otherRows, -⟩ :=
    @confirmMessages_congr keccak256 loop outcome _ _ _ _
      (ahead.upsertBatch
        (confirmedBatch loop outcome submittedAt entry.contentTag
          snapshot)) _
      (by simp [isAhead.messages]) isObserved
  obtain ⟨same, isSame, nextMessages, nextBatches⟩ :=
    confirmEntry_rows snapshotted isObserved
  rw [confirmed, Except.ok.injEq] at isSame
  subst isSame
  obtain ⟨later, isLater, laterMessages, laterBatches⟩ :=
    confirmEntry_rows snapshotted isOther
  refine ⟨later, isLater, ?_, ?_⟩
  · rw [laterMessages, otherRows, nextMessages]
  · intro key
    have isPosted :
        (confirmedBatch loop outcome submittedAt entry.contentTag
            snapshot).key =
          (loop.chainId, outcome.txHash, entry.contentTag) := by
      rfl
    have isRow :
        row.key = (loop.chainId, outcome.txHash, row.contentTag) := by
      rw [BatchRow.key, unread.chainId, unread.txHash]
    rw [laterBatches, batch?_upsertBatch_merged,
      batch?_upsertBatch_merged]
    by_cases sameTag : row.contentTag = entry.contentTag
    · have sameKey :
          row.key =
            (confirmedBatch loop outcome submittedAt entry.contentTag
              snapshot).key := by
        rw [isRow, isPosted, sameTag]
      have aheadRow :
          ahead.batch? row.key = some (store.merged row) := by
        rw [isAhead.batches, batch?_upsertBatch_merged, if_pos rfl]
      have nextRow :
          next.batch? row.key =
            some (store.merged
              (confirmedBatch loop outcome submittedAt entry.contentTag
                snapshot)) := by
        rw [nextBatches, batch?_upsertBatch_merged, if_pos sameKey.symm,
          Option.map_some,
          chained_of_confirmed (Store.status_merged store _)]
      rw [← sameKey]
      split
      · rw [Option.map_some,
          chained_of_confirmed (Store.status_merged ahead _),
          unread.merge_comm sameTag aheadRow nextRow]
      · rename_i otherKey
        rw [nextBatches, isAhead.batches, batch?_upsertBatch_merged,
          batch?_upsertBatch_merged, if_neg otherKey, ← sameKey,
          if_neg otherKey]
    · have otherKey :
          row.key ≠
            (confirmedBatch loop outcome submittedAt entry.contentTag
              snapshot).key := by
        rw [isRow, isPosted]
        intro same
        exact sameTag (Prod.ext_iff.mp (Prod.ext_iff.mp same).2).2
      by_cases ofRow : row.key = key
      · have nextRow : next.batch? row.key = store.batch? row.key := by
          rw [nextBatches, batch?_upsertBatch_merged,
            if_neg otherKey.symm]
          cases found : store.batch? row.key with
          | none =>
              rfl
          | some existing =>
              have ofTag : existing.contentTag = row.contentTag :=
                congrArg (fun k => k.2.2) (Store.key_of_batch? found)
              exact congrArg some (chained_of_tag (ofTag ▸ sameTag))
        have sameMerge : next.merged row = store.merged row := by
          rw [Store.merged, nextRow, Store.merged]
        rw [← ofRow, if_neg otherKey.symm, if_pos rfl, isAhead.batches,
          batch?_upsertBatch_merged, if_pos rfl, Option.map_some,
          chained_of_confirmed
            ((Store.status_merged store row).trans unread.status),
          sameMerge]
      · have sameMerge :
            ahead.merged
                (confirmedBatch loop outcome submittedAt entry.contentTag
                  snapshot) =
              store.merged
                (confirmedBatch loop outcome submittedAt entry.contentTag
                  snapshot) := by
          rw [Store.merged, isAhead.batches, batch?_upsertBatch_merged,
            if_neg otherKey, Store.merged]
        rw [if_neg ofRow, nextBatches, isAhead.batches, sameMerge,
          batch?_upsertBatch_merged, batch?_upsertBatch_merged,
          if_neg ofRow]

/-- Confirming the entries and writing an unread row commute. -/
theorem confirmEntries_ahead
    {entries : List PackedSubmitIncludedEntry}
    {row : BatchRow}
    {store ahead next : Store}
    (unread : row.Unread loop outcome)
    (isAhead : store.AheadBy row ahead)
    (confirmed :
      confirmEntries keccak256 loop outcome submittedAt entries store =
        .ok next) :
    ∃ later,
      confirmEntries keccak256 loop outcome submittedAt entries ahead =
          .ok later ∧
        next.AheadBy row later := by
  induction entries generalizing store ahead with
  | nil =>
      cases confirmed
      exact ⟨ahead, rfl, isAhead⟩
  | cons entry rest inductionHypothesis =>
      rw [confirmEntries] at confirmed ⊢
      split at confirmed
      · cases confirmed
      · rename_i middle isMiddle
        obtain ⟨later, isLater, middleAhead⟩ :=
          confirmEntry_ahead unread isAhead isMiddle
        rw [isLater]
        exact inductionHypothesis middleAhead confirmed

/-- The slot holds a row of this message hash. -/
def Store.HoldsHash
    (store : Store)
    (key : MessageKey)
    (messageHash : Bytes32) : Prop :=
  ∃ row, store.message? key = some row ∧ row.messageHash = messageHash

theorem entrySnapshot_succeeds
    {contentTag batchContentHash : Bytes32}
    {index : Nat}
    {messages : List DecodedMessage}
    (inRange : ∀ message ∈ messages, message.nonce ≤ MAX_NONCE) :
    ∃ snapshot,
      entrySnapshot keccak256 contentTag batchContentHash index messages =
        .ok snapshot := by
  induction messages generalizing index with
  | nil =>
      exact ⟨[], rfl⟩
  | cons message rest inductionHypothesis =>
      rw [List.forall_mem_cons] at inRange
      obtain ⟨later, isLater⟩ := @inductionHypothesis (index + 1) inRange.2
      rw [entrySnapshot, computeMessageId,
        if_neg (Nat.not_lt.mpr inRange.1), isLater]
      exact ⟨_, rfl⟩

theorem Store.HoldsHash.upsertObserved
    {store next : Store}
    {row : MessageRow}
    {key : MessageKey}
    {messageHash : Bytes32}
    (holds : store.HoldsHash key messageHash)
    (observed : store.upsertObserved row = .ok next) :
    next.HoldsHash key messageHash := by
  obtain ⟨held, found, sameHash⟩ := holds
  by_cases sameKey : row.key = key
  · rcases (Store.upsertObserved_ok observed).2 with
      ⟨rfl, -⟩ | ⟨rfl, replaceable⟩
    · exact ⟨held, found, sameHash⟩
    · refine ⟨row, ?_, ?_⟩
      · rw [Store.message?_putMessage, if_pos sameKey]
      · rw [← sameHash]
        exact (replaceable held (sameKey ▸ found)).1.symm
  · exact ⟨held,
      (Store.message?_upsertObserved_of_ne observed sameKey).trans found,
      sameHash⟩

/-- The message loop succeeds over rows of its messages. -/
theorem confirmMessages_succeeds
    {contentTag : Bytes32}
    {index : Nat}
    {messages : List DecodedMessage}
    {store : Store}
    (inRange : ∀ message ∈ messages, message.nonce ≤ MAX_NONCE)
    (holds :
      ∀ message ∈ messages,
        store.HoldsHash message.key message.messageHash) :
    ∃ next,
      confirmMessages keccak256 loop outcome contentTag index messages
        store = .ok next := by
  induction messages generalizing index store with
  | nil =>
      exact ⟨store, rfl⟩
  | cons message rest inductionHypothesis =>
      rw [List.forall_mem_cons] at inRange holds
      obtain ⟨⟨row, found, sameHash⟩, restHolds⟩ := holds
      have read :
          store.getBySenderNonce message.sender message.nonce =
            .ok (some row) := by
        rw [Store.getBySenderNonce, if_pos inRange.1]
        exact congrArg Except.ok found
      rw [confirmMessages, read, computeMessageId,
        if_neg (Nat.not_lt.mpr inRange.1)]
      dsimp only
      obtain ⟨middle, observed⟩ :=
        @Store.upsertObserved_succeeds store
          (confirmedMessage loop outcome contentTag index message _ row)
          inRange.1 (by
            intro existing isExisting
            rw [key_confirmedMessage, found,
              Option.some.injEq] at isExisting
            exact isExisting ▸ sameHash)
      rw [observed]
      exact inductionHypothesis inRange.2
        fun other member =>
          (restHolds other member).upsertObserved observed

/-- Confirming succeeds over rows of the messages. -/
theorem confirmEntries_succeeds
    {entries : List PackedSubmitIncludedEntry}
    {store : Store}
    (inRange :
      ∀ entry ∈ entries, ∀ message ∈ entry.messages,
        message.nonce ≤ MAX_NONCE)
    (holds :
      ∀ entry ∈ entries, ∀ message ∈ entry.messages,
        store.HoldsHash message.key message.messageHash) :
    ∃ next,
      confirmEntries keccak256 loop outcome submittedAt entries store =
        .ok next := by
  induction entries generalizing store with
  | nil =>
      exact ⟨store, rfl⟩
  | cons entry rest inductionHypothesis =>
      rw [List.forall_mem_cons] at inRange holds
      obtain ⟨snapshot, snapshotted⟩ :=
        @entrySnapshot_succeeds keccak256 entry.contentTag
          outcome.blobVersionedHash 0 entry.messages inRange.1
      obtain ⟨observed, isObserved⟩ :=
        @confirmMessages_succeeds keccak256 loop outcome entry.contentTag 0
          entry.messages
          (store.upsertBatch
            (confirmedBatch loop outcome submittedAt entry.contentTag
              snapshot))
          inRange.1 (by
            intro message member
            obtain ⟨row, found, sameHash⟩ := holds.1 message member
            exact ⟨row, (Store.message?_upsertBatch _ _ _).trans found,
              sameHash⟩)
      obtain ⟨middle, isMiddle, -⟩ :=
        confirmEntry_rows snapshotted isObserved
      rw [confirmEntries, isMiddle]
      apply inductionHypothesis inRange.2
      intro other member message ofOther
      obtain ⟨row, found, sameHash⟩ := holds.2 other member message ofOther
      rcases message?_confirmEntry isMiddle message.key with
        same | ⟨taker, -, position, messageId, old, -, isOld, oldHash, -,
          taken⟩
      · exact ⟨row, same.trans found, sameHash⟩
      · rw [found, Option.some.injEq] at isOld
        exact ⟨_, taken, oldHash.symm.trans (isOld ▸ sameHash)⟩

end Entry

section Events

variable {libraries : ReaderLibraries}
variable {loop : AggregatorLoopOptions}
variable {outcome : PackedSubmitIncluded}
variable {opts : ProcessBatchOptions}
variable {entry : PackedSubmitIncludedEntry}

/-- A call records what the Reader verifies of the segment. -/
theorem readEvent_eq
    (libraries : ReaderLibraries)
    (store : Store)
    (opts : ProcessBatchOptions) :
    readEvent libraries store opts =
      match readSegment libraries opts with
      | none => store
      | some verified =>
          store.recordBatch (opts.batchRow libraries verified)
            (opts.messageRows libraries verified) := by
  have left := processBatch_store libraries opts store emptyCounters
  rw [readEvent]
  cases read : readSegment libraries opts with
  | none =>
      rw [read] at left
      dsimp only at left ⊢
      split
      · rename_i next result returned
        exact left next result returned
      · rfl
  | some verified =>
      rw [read] at left
      obtain ⟨-, result, returned⟩ := left
      rw [returned]

/-- A verified message is one of those packed into the segment. -/
theorem PackedCall.packed
    (call : PackedCall libraries loop outcome opts entry)
    {verified : List VerifiedEntry}
    (read : readSegment libraries opts = some verified)
    {kept : VerifiedEntry}
    (member : kept ∈ verified) :
    ∃ message ∈ entry.messages,
      message.toBAMMessage = kept.message := by
  rw [readSegment] at read
  split at read
  · cases read
  · split at read
    · cases read
      cases member
    · rename_i blobBytes fetched
      split at read
      · cases read
      · rename_i usableBytes extracted
        split at read
        · cases read
          cases member
        · rename_i decoded isDecoded
          obtain ⟨messages, signatures⟩ :=
            call.decodes blobBytes usableBytes decoded fetched extracted
              isDecoded
          cases checked :
              (verifyMessages libraries opts 0
                (decoded.messages.zip decoded.signatures)
                emptyCounters).2 with
          | error error =>
              rw [checked] at read
              cases read
          | ok others =>
              rw [checked] at read
              cases read
              obtain ⟨position, -, isAt⟩ :=
                verifyMessages_indexed checked kept member
              have inBatch : kept.message ∈ decoded.messages :=
                (List.of_mem_zip (List.mem_of_getElem? isAt)).1
              rw [messages] at inBatch
              obtain ⟨message, ofEntry, isMessage⟩ :=
                List.mem_map.mp inBatch
              exact ⟨message, ofEntry, isMessage⟩

/-- The verified message has the slot and the hash of the packed one. -/
theorem PackedCall.slot
    (call : PackedCall libraries loop outcome opts entry)
    {store : Store}
    (pending :
      store.PendingFor libraries.crypto.keccak256 outcome)
    {kept : VerifiedEntry}
    (valid : kept.Valid libraries opts)
    {message : DecodedMessage}
    (member : message ∈ entry.messages)
    (isMessage : message.toBAMMessage = kept.message) :
    (kept.message.sender, kept.message.nonce) = message.key ∧
      kept.messageHash = message.messageHash := by
  obtain ⟨hashed, -⟩ := pending entry call.included message member
  have keptHash := valid.hash
  rw [← isMessage, call.contentTag] at keptHash
  refine ⟨by rw [← isMessage]; rfl, ?_⟩
  exact Option.some.inj (keptHash.symm.trans hashed)

/-- A call that verifies nothing writes an unread row at most. -/
theorem PackedCall.unread
    (call : PackedCall libraries loop outcome opts entry) :
    opts.baseBatch.Unread loop outcome where
  chainId := call.chainId
  txHash := call.txHash
  versionedHash := call.versionedHash
  contentHash := call.versionedHash
  blockNumber := congrArg some call.blockNumber
  txIndex := congrArg some call.txIndex
  status := rfl
  replacedByTxHash := rfl
  submittedAt := rfl
  invalidatedAt := rfl
  submitter := congrArg some call.submitter
  messageSnapshot := rfl

theorem Store.SameRows.trans
    {first second third : Store}
    (left : first.SameRows second)
    (right : second.SameRows third) :
    first.SameRows third where
  batches := fun key => (left.batches key).trans (right.batches key)
  messages := fun key => (left.messages key).trans (right.messages key)

theorem Store.SameRows.upsertBatch
    {first second : Store}
    (same : first.SameRows second)
    (row : BatchRow) :
    (first.upsertBatch row).SameRows (second.upsertBatch row) := by
  constructor
  · intro key
    rw [Store.batch?_upsertBatch, Store.batch?_upsertBatch,
      same.batches, same.batches]
  · intro key
    rw [Store.message?_upsertBatch, Store.message?_upsertBatch,
      same.messages]

/-- Calls that verify nothing treat stores of the same rows alike. -/
theorem Store.SameRows.readEvents
    {events : List ProcessBatchOptions}
    (unread :
      ∀ opts ∈ events, ∀ verified,
        readSegment libraries opts = some verified → verified = [])
    {first second : Store}
    (same : first.SameRows second) :
    (readEvents libraries first events).SameRows
      (readEvents libraries second events) := by
  induction events generalizing first second with
  | nil =>
      exact same
  | cons opts rest inductionHypothesis =>
      rw [List.forall_mem_cons] at unread
      apply inductionHypothesis unread.2
      rw [readEvent_eq, readEvent_eq]
      cases read : readSegment libraries opts with
      | none =>
          exact same
      | some verified =>
          rw [unread.1 verified read]
          exact same.upsertBatch opts.baseBatch

/-- Confirming commutes with calls that verify nothing. -/
theorem confirmEntries_unread
    {keccak256 : Bytes → Bytes32}
    {submittedAt : Int}
    {entries : List PackedSubmitIncludedEntry}
    {events : List ProcessBatchOptions}
    (packed :
      ∀ opts ∈ events, ∃ entry,
        PackedCall libraries loop outcome opts entry)
    (unread :
      ∀ opts ∈ events, ∀ verified,
        readSegment libraries opts = some verified → verified = [])
    {store next : Store}
    (confirmed :
      confirmEntries keccak256 loop outcome submittedAt entries store =
        .ok next) :
    ∃ later,
      confirmEntries keccak256 loop outcome submittedAt entries
          (readEvents libraries store events) = .ok later ∧
        (readEvents libraries next events).SameRows later := by
  induction events generalizing store next with
  | nil =>
      exact ⟨next, confirmed, fun _ => rfl, fun _ => rfl⟩
  | cons opts rest inductionHypothesis =>
      rw [List.forall_mem_cons] at packed unread
      obtain ⟨entry, call⟩ := packed.1
      have firstCall (before : Store) :
          readEvents libraries before (opts :: rest) =
            readEvents libraries (readEvent libraries before opts)
              rest := by
        rfl
      rw [firstCall, firstCall, readEvent_eq, readEvent_eq]
      cases read : readSegment libraries opts with
      | none =>
          exact inductionHypothesis packed.2 unread.2 confirmed
      | some verified =>
          rw [unread.1 verified read]
          obtain ⟨middle, isMiddle, isAhead⟩ :=
            confirmEntries_ahead call.unread
              ⟨Store.messages_upsertBatch store opts.baseBatch,
                fun _ => rfl⟩
              confirmed
          obtain ⟨later, isLater, sameLater⟩ :=
            inductionHypothesis packed.2 unread.2 isMiddle
          have sameMiddle :
              (next.upsertBatch opts.baseBatch).SameRows middle := by
            constructor
            · exact fun key => (isAhead.batches key).symm
            · intro key
              rw [Store.message?_upsertBatch, Store.message?,
                Store.message?, isAhead.messages]
          exact ⟨later, isLater,
            (sameMiddle.readEvents unread.2).trans sameLater⟩

theorem readSegment_valid
    {verified : List VerifiedEntry}
    (read : readSegment libraries opts = some verified) :
    ∀ kept ∈ verified, kept.Valid libraries opts := by
  have written :=
    processBatch_store libraries opts Store.empty emptyCounters
  rw [read] at written
  exact written.1

/-- The rows a call writes are confirmed ones without ingest metadata. -/
theorem observed_of_messageRows
    {verified : List VerifiedEntry}
    {row : MessageRow}
    (member : row ∈ opts.messageRows libraries verified) :
    row.status = .confirmed ∧ row.ingestedAt = none ∧
      ∃ kept ∈ verified, row.nonce = kept.message.nonce := by
  obtain ⟨kept, isKept, isRow⟩ := mem_messageRows.mp member
  obtain ⟨messageId, -, rfl⟩ := Option.map_eq_some_iff.mp isRow
  exact ⟨rfl, rfl, kept, isKept, rfl⟩

/-- A slot of a message: as ingest left it, or taken by the Reader. -/
def Store.ReaderSlot
    (store : Store)
    (key : MessageKey)
    (messageHash : Bytes32) : Prop :=
  ∃ row,
    store.message? key = some row ∧ row.messageHash = messageHash ∧
    (row.status = .pending ∨
      row.status = .confirmed ∧ row.ingestedAt = none)

theorem Store.ReaderSlot.readEvent
    {store : Store}
    {key : MessageKey}
    {messageHash : Bytes32}
    (slot : store.ReaderSlot key messageHash) :
    (readEvent libraries store opts).ReaderSlot key messageHash := by
  rw [readEvent_eq]
  cases read : readSegment libraries opts with
  | none =>
      exact slot
  | some verified =>
      obtain ⟨held, found, sameHash, phase⟩ := slot
      rcases store.message?_recordBatch
          (opts.batchRow libraries verified)
          (opts.messageRows libraries verified) key with
        same | ⟨row, member, ofKey, taken, replaceable⟩
      · exact ⟨held, same.trans found, sameHash, phase⟩
      · obtain ⟨confirmed, observed, -⟩ := observed_of_messageRows member
        exact ⟨row, taken,
          (replaceable held found).1.symm.trans sameHash,
          .inr ⟨confirmed, observed⟩⟩

theorem Store.ReaderSlot.readEvents
    {store : Store}
    {key : MessageKey}
    {messageHash : Bytes32}
    (slot : store.ReaderSlot key messageHash)
    (events : List ProcessBatchOptions) :
    (readEvents libraries store events).ReaderSlot key
      messageHash := by
  induction events generalizing store with
  | nil =>
      exact slot
  | cons opts rest inductionHypothesis =>
      exact inductionHypothesis slot.readEvent

/-- A call that verifies the message of a slot leaves the slot confirmed. -/
theorem confirmedSlot_readEvent
    {store : Store}
    {verified : List VerifiedEntry}
    {kept : VerifiedEntry}
    (read : readSegment libraries opts = some verified)
    (member : kept ∈ verified)
    (slot :
      store.ReaderSlot (kept.message.sender, kept.message.nonce)
        kept.messageHash) :
    (readEvent libraries store opts).ConfirmedSlot
      (kept.message.sender, kept.message.nonce) := by
  have valid := readSegment_valid read
  obtain ⟨messageId, identified⟩ := (valid kept member).messageId
  have isRow :
      kept.messageRow opts messageId ∈
        opts.messageRows libraries verified := by
    rw [ProcessBatchOptions.messageRows, List.mem_filterMap]
    refine ⟨kept, member, ?_⟩
    rw [VerifiedEntry.toMessageRow, identified]
    rfl
  rw [readEvent_eq, read]
  refine @Store.confirmedSlot_foldl_observe
    (store.upsertBatch (opts.batchRow libraries verified)) _ _ ?_ ?_ isRow
    ?_
  · intro row isMember
    obtain ⟨-, -, other, isOther, sameNonce⟩ := observed_of_messageRows isMember
    rw [sameNonce]
    exact (valid other isOther).nonce
  · exact fun row isMember => (observed_of_messageRows isMember).1
  · intro existing found
    obtain ⟨held, isHeld, sameHash, -⟩ := slot
    rw [Store.message?_upsertBatch] at found
    have isExisting : existing = held :=
      Option.some.inj (found.symm.trans isHeld)
    exact .inr (isExisting ▸ sameHash)

/-- A confirmed slot survives a call. -/
theorem readEvent_confirmed
    {store : Store}
    {key : MessageKey}
    {row : MessageRow}
    (found : store.message? key = some row)
    (confirmed : row.status = .confirmed) :
    (readEvent libraries store opts).message? key = some row := by
  rw [readEvent_eq]
  split
  · exact found
  · exact Store.message?_recordBatch_of_confirmed _ _ found confirmed

/-- A pending slot whose message a call verifies holds the Reader's row once
the calls are made. -/
theorem readEvents_takes
    {events : List ProcessBatchOptions}
    {store : Store}
    {key : MessageKey}
    {messageHash : Bytes32}
    (slot : store.ReaderSlot key messageHash)
    (verifies :
      store.ConfirmedSlot key ∨
        ∃ opts ∈ events, ∃ verified kept,
          readSegment libraries opts = some verified ∧
          kept ∈ verified ∧
          (kept.message.sender, kept.message.nonce) = key ∧
          kept.messageHash = messageHash) :
    ∃ row,
      (readEvents libraries store events).message? key = some row ∧
        row.status = .confirmed ∧ row.ingestedAt = none := by
  induction events generalizing store with
  | nil =>
      obtain ⟨row, found, -, pending | taken⟩ := slot
      · rcases verifies with ⟨other, isOther, confirmed⟩ | ⟨_, member, _⟩
        · rw [found, Option.some.injEq] at isOther
          rw [← isOther, pending] at confirmed
          cases confirmed
        · cases member
      · exact ⟨row, found, taken⟩
  | cons opts rest inductionHypothesis =>
      apply inductionHypothesis slot.readEvent
      rcases verifies with
        ⟨row, found, confirmed⟩ |
          ⟨other, member, verified, kept, read, isKept, ofKey, ofHash⟩
      · exact .inl ⟨row, readEvent_confirmed found confirmed, confirmed⟩
      · rcases List.mem_cons.mp member with rfl | inRest
        · subst ofKey ofHash
          exact .inl (confirmedSlot_readEvent read isKept slot)
        · exact .inr ⟨other, inRest, verified, kept, read, isKept, ofKey,
            ofHash⟩

/-- Confirmed slots survive the calls. -/
theorem readEvents_confirmed
    {events : List ProcessBatchOptions}
    {store : Store}
    {key : MessageKey}
    {row : MessageRow}
    (found : store.message? key = some row)
    (confirmed : row.status = .confirmed) :
    (readEvents libraries store events).message? key = some row := by
  induction events generalizing store with
  | nil =>
      exact found
  | cons opts rest inductionHypothesis =>
      exact inductionHypothesis (readEvent_confirmed found confirmed)

/-- Confirming keeps the ingest time of the rows it confirms. -/
theorem ingested_of_confirmEntries
    {keccak256 : Bytes → Bytes32}
    {submittedAt : Int}
    {entries : List PackedSubmitIncludedEntry}
    {store next : Store}
    {message : DecodedMessage}
    {row : MessageRow}
    (confirmed :
      confirmEntries keccak256 loop outcome submittedAt entries store =
        .ok next)
    (included : entry ∈ entries)
    (member : message ∈ entry.messages)
    (found : store.message? message.key = some row)
    (ingested : row.ingestedAt.isSome) :
    ∃ after,
      next.message? message.key = some after ∧
        after.status = .confirmed ∧ after.ingestedAt.isSome := by
  obtain ⟨after, isAfter, final⟩ :=
    confirmedSlot_confirmEntries confirmed included member found
  refine ⟨after, isAfter, final, ?_⟩
  rcases message?_confirmEntries confirmed message.key with
    same | ⟨_, -, _, -, _, _, old, -, isOld, -, -, taken⟩
  · rw [isAfter, found, Option.some.injEq] at same
    exact same ▸ ingested
  · rw [isAfter, Option.some.injEq] at taken
    rw [found, Option.some.injEq] at isOld
    subst taken isOld
    exact ingested

end Events

/-- Confirming a packed transaction and processing its events leave the same
rows in either order exactly when the Reader verifies none of the messages. -/
theorem confirm_process_commute_iff
    {libraries : ReaderLibraries}
    {loop : AggregatorLoopOptions}
    {outcome : PackedSubmitIncluded}
    {events : List ProcessBatchOptions}
    {store : Store}
    (submittedAt : Int)
    (packed :
      ∀ opts ∈ events, ∃ entry,
        PackedCall libraries loop outcome opts entry)
    (pending : store.PendingFor libraries.crypto.keccak256 outcome) :
    ∃ confirmed readerFirst,
      confirmIncluded libraries.crypto.keccak256 loop store outcome
          submittedAt = .ok confirmed ∧
      confirmIncluded libraries.crypto.keccak256 loop
          (readEvents libraries store events) outcome submittedAt =
        .ok readerFirst ∧
      ((readEvents libraries confirmed events).SameRows readerFirst ↔
        ∀ opts ∈ events, ∀ verified,
          readSegment libraries opts = some verified →
          verified = []) := by
  have inRange :
      ∀ entry ∈ outcome.entries, ∀ message ∈ entry.messages,
        message.nonce ≤ MAX_NONCE := by
    intro entry included message member
    exact nonce_of_computeMessageHash
      (pending entry included message member).1
  obtain ⟨confirmed, isConfirmed⟩ :=
    @confirmEntries_succeeds libraries.crypto.keccak256 loop outcome
      submittedAt outcome.entries store inRange (by
        intro entry included message member
        obtain ⟨-, row, found, -, sameHash, -⟩ :=
          pending entry included message member
        exact ⟨row, found, sameHash⟩)
  have slots :
      ∀ entry ∈ outcome.entries, ∀ message ∈ entry.messages,
        store.ReaderSlot message.key message.messageHash := by
    intro entry included message member
    obtain ⟨-, row, found, isPending, sameHash, -⟩ :=
      pending entry included message member
    exact ⟨row, found, sameHash, .inl isPending⟩
  obtain ⟨readerFirst, isReaderFirst⟩ :=
    @confirmEntries_succeeds libraries.crypto.keccak256 loop outcome
      submittedAt outcome.entries (readEvents libraries store events)
      inRange (by
        intro entry included message member
        obtain ⟨row, found, sameHash, -⟩ :=
          (slots entry included message member).readEvents events
        exact ⟨row, found, sameHash⟩)
  refine ⟨confirmed, readerFirst, isConfirmed, isReaderFirst, ?_, ?_⟩
  · intro same opts member verified read
    by_contra nonempty
    obtain ⟨kept, isKept⟩ := List.exists_mem_of_ne_nil verified nonempty
    obtain ⟨entry, call⟩ := packed opts member
    obtain ⟨message, ofEntry, isMessage⟩ := call.packed read isKept
    obtain ⟨sameKey, sameHash⟩ :=
      call.slot pending (readSegment_valid read kept isKept) ofEntry
        isMessage
    obtain ⟨-, row, found, -, -, ingested, -⟩ :=
      pending entry call.included message ofEntry
    -- the Poster's row keeps its ingest time, the Reader's has none
    obtain ⟨posted, isPosted, final, hasTime⟩ :=
      ingested_of_confirmEntries isConfirmed call.included ofEntry found
        ingested
    obtain ⟨observed, isObserved, observedFinal, noTime⟩ :=
      readEvents_takes
        (slots entry call.included message ofEntry)
        (.inr ⟨opts, member, verified, kept, read, isKept, sameKey,
          sameHash⟩)
    have sameRow := same.messages message.key
    rw [readEvents_confirmed isPosted final,
      message?_confirmEntries_of_confirmed isReaderFirst isObserved
        observedFinal, Option.some.injEq] at sameRow
    rw [sameRow, noTime] at hasTime
    cases hasTime
  · intro unread
    obtain ⟨later, isLater, same⟩ :=
      confirmEntries_unread packed unread isConfirmed
    have isSame : later = readerFirst :=
      Except.ok.inj (isLater.symm.trans isReaderFirst)
    exact isSame ▸ same

/-- One message of the pool. -/
def packedMessage : DecodedMessage where
  sender := 7
  nonce := 0
  contents := [3]
  contentTag := 5
  signature := [1]
  messageHash :=
    (computeMessageHash sampleLibraries.crypto.keccak256 7 5 0 [3]).getD 0
  ingestedAt := some 100

/-- The transaction of `sampleBatch 1 [3]`, as the Poster sent it. -/
def packedOutcome : PackedSubmitIncluded where
  txHash := 1
  blockNumber := 100
  txIndex := 0
  blobVersionedHash := 1
  submitter := 9
  entries :=
    [{ contentTag := 5, startFE := 0, endFE := 1,
       messages := [packedMessage] }]

/-- The row `insertPending` wrote for the message. -/
def packedRow : MessageRow :=
  StoreTxnPendingRow.toMessageRow {
    contentTag := 5
    sender := 7
    nonce := 0
    contents := [3]
    signature := [1]
    messageHash := packedMessage.messageHash
    chainId := 1
    ingestedAt := 100
    ingestSeq := 1 }

/-- The pool of the one message. -/
def packedStore : Store :=
  Store.empty.putMessage packedRow

theorem packedStore_pendingFor :
    packedStore.PendingFor sampleLibraries.crypto.keccak256
      packedOutcome := by
  simp only [Store.PendingFor, packedOutcome, List.forall_mem_singleton]
  exact ⟨by decide +kernel, packedRow, by decide +kernel, rfl, rfl, rfl,
    rfl⟩

/-- The event of the transaction, read as the Poster packed it. -/
theorem sampleBatch_packedCall :
    PackedCall sampleLibraries ⟨1, 32⟩ packedOutcome (sampleBatch 1 [3])
      ⟨5, 0, 1, [packedMessage]⟩ where
  included := List.mem_singleton_self _
  chainId := rfl
  txHash := rfl
  blockNumber := rfl
  txIndex := rfl
  versionedHash := rfl
  submitter := rfl
  contentTag := rfl
  decodes := by
    intro blobBytes usableBytes decoded _ _ isDecoded
    cases isDecoded
    exact ⟨rfl, rfl⟩

/-- The ingest time and sequence of the slot of the message. -/
def ingestView (store : Store) : Option (Option Int × Option Nat) :=
  (store.message? packedMessage.key).map fun row =>
    (row.ingestedAt, row.ingestSeq)

/-- Confirmed first, the row keeps its ingest time and sequence; read first,
it has lost both. -/
theorem reader_first_drops_ingest_metadata :
    ∃ confirmed readerFirst,
      confirmIncluded sampleLibraries.crypto.keccak256 ⟨1, 32⟩ packedStore
          packedOutcome 200 = .ok confirmed ∧
      confirmIncluded sampleLibraries.crypto.keccak256 ⟨1, 32⟩
          (readEvents sampleLibraries packedStore [sampleBatch 1 [3]])
          packedOutcome 200 = .ok readerFirst ∧
      ingestView
          (readEvents sampleLibraries confirmed [sampleBatch 1 [3]]) =
        some (some 100, some 1) ∧
      ingestView readerFirst = some (none, none) ∧
      ¬ (readEvents sampleLibraries confirmed
            [sampleBatch 1 [3]]).SameRows readerFirst := by
  have posterFirst :
      (confirmIncluded sampleLibraries.crypto.keccak256 ⟨1, 32⟩
          packedStore packedOutcome 200).toOption.map (fun confirmed =>
            ingestView (readEvents sampleLibraries confirmed
              [sampleBatch 1 [3]])) =
        some (some (some 100, some 1)) := by
    decide +kernel
  have readerFirst :
      (confirmIncluded sampleLibraries.crypto.keccak256 ⟨1, 32⟩
          (readEvents sampleLibraries packedStore [sampleBatch 1 [3]])
          packedOutcome 200).toOption.map ingestView =
        some (some (none, none)) := by
    decide +kernel
  obtain ⟨confirmed, isConfirmed, kept⟩ :=
    Option.map_eq_some_iff.mp posterFirst
  obtain ⟨last, isLast, dropped⟩ := Option.map_eq_some_iff.mp readerFirst
  refine ⟨confirmed, last, ExceptLoops.ok_of_toOption isConfirmed,
    ExceptLoops.ok_of_toOption isLast, kept, dropped, ?_⟩
  intro same
  have sameView := kept.symm.trans
    ((congrArg (Option.map _) (same.messages _)).trans dropped)
  cases sameView

/-- The sampled transaction does not commute: the Reader verifies its
message. -/
theorem confirm_process_commute_iff_sample :
    ∃ confirmed readerFirst,
      confirmIncluded sampleLibraries.crypto.keccak256 ⟨1, 32⟩ packedStore
          packedOutcome 200 = .ok confirmed ∧
      confirmIncluded sampleLibraries.crypto.keccak256 ⟨1, 32⟩
          (readEvents sampleLibraries packedStore [sampleBatch 1 [3]])
          packedOutcome 200 = .ok readerFirst ∧
      ((readEvents sampleLibraries confirmed
            [sampleBatch 1 [3]]).SameRows readerFirst ↔
        ∀ opts ∈ [sampleBatch 1 [3]], ∀ verified,
          readSegment sampleLibraries opts = some verified →
          verified = []) :=
  confirm_process_commute_iff 200
    (List.forall_mem_singleton.mpr ⟨_, sampleBatch_packedCall⟩)
    packedStore_pendingFor

end Bam
