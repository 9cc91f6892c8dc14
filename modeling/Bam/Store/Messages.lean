import Bam.Store.Rows

namespace Bam

/-!
# Message operations of a store transaction

Every operation reads and writes one immutable `Store`, which is what a
serializable transaction sees.  An operation that throws returns an error and
no store, so the transaction around it is rolled back.
-/

/-- The message row `insertPending` writes. -/
def StoreTxnPendingRow.toMessageRow
    (row : StoreTxnPendingRow) : MessageRow where
  messageId := none
  sender := row.sender
  nonce := row.nonce
  contentTag := row.contentTag
  contents := row.contents
  signature := row.signature
  messageHash := row.messageHash
  status := .pending
  batchRef := none
  chainId := some row.chainId
  ingestedAt := some row.ingestedAt
  ingestSeq := some row.ingestSeq
  blockNumber := none
  txIndex := none
  messageIndexWithinBatch := none

/-- `mapPending`: a pending row must carry its ingest metadata. -/
def mapPending
    (row : MessageRow) : Except StoreError StoreTxnPendingRow :=
  match row.chainId, row.ingestedAt, row.ingestSeq with
  | some chainId, some ingestedAt, some ingestSeq =>
      .ok {
        contentTag := row.contentTag
        sender := row.sender
        nonce := row.nonce
        contents := row.contents
        signature := row.signature
        messageHash := row.messageHash
        chainId := chainId
        ingestedAt := ingestedAt
        ingestSeq := ingestSeq }
  | _, _, _ =>
      .error (.nullIngestMetadata row.sender row.nonce)

/-- A row `mapPending` maps keeps the fields a batch is built from. -/
theorem mapPending_ok
    {row : MessageRow}
    {pending : StoreTxnPendingRow}
    (mapped : mapPending row = .ok pending) :
    pending.contentTag = row.contentTag ∧
      pending.sender = row.sender ∧
      pending.nonce = row.nonce ∧
      pending.contents = row.contents ∧
      pending.signature = row.signature ∧
      pending.messageHash = row.messageHash ∧
      some pending.ingestedAt = row.ingestedAt ∧
      some pending.ingestSeq = row.ingestSeq := by
  unfold mapPending at mapped
  split at mapped
  · rename_i hasChain hasTime hasSeq
    cases mapped
    simp [hasTime, hasSeq]
  · cases mapped

/-- The `ORDER BY` of `listMessages`. -/
def MessageRow.listOrder (row : MessageRow) : List Int :=
  Table.ascNullsLast (row.blockNumber.map Int.ofNat) ++
    Table.ascNullsLast (row.txIndex.map Int.ofNat) ++
    Table.ascNullsLast (row.messageIndexWithinBatch.map Int.ofNat) ++
    Table.ascNullsLast (row.ingestSeq.map Int.ofNat)

namespace Store

/-- Store a message row under its own key. -/
def putMessage
    (store : Store)
    (row : MessageRow) : Store :=
  { store with messages := store.messages.put row }

@[simp] theorem batches_putMessage
    (store : Store)
    (row : MessageRow) :
    (store.putMessage row).batches = store.batches :=
  rfl

@[simp] theorem batch?_putMessage
    (store : Store)
    (row : MessageRow)
    (key : BatchKey) :
    (store.putMessage row).batch? key = store.batch? key :=
  rfl

@[simp] theorem nonces_putMessage
    (store : Store)
    (row : MessageRow) :
    (store.putMessage row).nonces = store.nonces :=
  rfl

/-- Storing a row changes the row of its own slot only. -/
theorem message?_putMessage
    (store : Store)
    (row : MessageRow)
    (key : MessageKey) :
    (store.putMessage row).message? key =
      if row.key = key then some row else store.message? key :=
  Table.get?_put store.messages row key

/-- `insertPending`: claim a free or reorged slot for a pending message. -/
def insertPending
    (store : Store)
    (row : StoreTxnPendingRow) : Except StoreError Store :=
  if row.nonce ≤ MAX_NONCE then
    match store.message? (row.sender, row.nonce) with
    | none => .ok (store.putMessage row.toMessageRow)
    | some existing =>
        if existing.status = .reorged then
          .ok (store.putMessage row.toMessageRow)
        else
          .error (.duplicateMessage row.sender row.nonce)
  else
    .error (.nonceOutOfRange row.nonce)

/-- `upsertObserved`: first observed wins, and a confirmed row is final. -/
def upsertObserved
    (store : Store)
    (row : MessageRow) : Except StoreError Store :=
  if row.nonce ≤ MAX_NONCE then
    match store.message? row.key with
    | none => .ok (store.putMessage row)
    | some existing =>
        if existing.messageHash ≠ row.messageHash then
          .error .messageHashConflict
        else if existing.status = .confirmed then
          .ok store
        else
          .ok (store.putMessage row)
  else
    .error (.nonceOutOfRange row.nonce)

/-- `getBySenderNonce`. -/
def getBySenderNonce
    (store : Store)
    (sender : Address)
    (nonce : Nat) : Except StoreError (Option MessageRow) :=
  if nonce ≤ MAX_NONCE then
    .ok (store.message? (sender, nonce))
  else
    .error (.nonceOutOfRange nonce)

/-- The pending rows of a tag in ingest order. -/
def pendingRows
    (store : Store)
    (tag : Bytes32) : List MessageRow :=
  Table.orderBy
    (fun row => Table.ascNullsLast (row.ingestSeq.map Int.ofNat))
    (store.messages.select fun row =>
      row.contentTag = tag && row.status = .pending)

/-- `listPendingByTag` without a limit. -/
def listPendingByTag
    (store : Store)
    (tag : Bytes32) : Except StoreError (List StoreTxnPendingRow) :=
  (store.pendingRows tag).mapM mapPending

/-- An image of a `mapM` that succeeds is the image of an item. -/
theorem exists_of_mem_mapM
    {α β ε : Type}
    {f : α → Except ε β}
    {items : List α}
    {images : List β}
    {image : β}
    (mapped : items.mapM f = .ok images)
    (member : image ∈ images) :
    ∃ item ∈ items, f item = .ok image := by
  induction items generalizing images with
  | nil =>
      cases mapped
      cases member
  | cons first rest inductionHypothesis =>
      rw [List.mapM_cons] at mapped
      cases isFirst : f first with
      | error error =>
          rw [isFirst] at mapped
          cases mapped
      | ok firstImage =>
          rw [isFirst] at mapped
          cases isRest : rest.mapM f with
          | error error =>
              rw [isRest] at mapped
              cases mapped
          | ok restImages =>
              rw [isRest] at mapped
              cases mapped
              rcases List.mem_cons.mp member with rfl | inRest
              · exact ⟨first, List.mem_cons_self, isFirst⟩
              · obtain ⟨item, itemMember, isImage⟩ :=
                  inductionHypothesis isRest inRest
                exact ⟨item, List.mem_cons_of_mem first itemMember,
                  isImage⟩

/-- A `mapM` succeeds when every item has an image. -/
theorem mapM_succeeds
    {α β ε : Type}
    {f : α → Except ε β}
    {items : List α}
    (total : ∀ item ∈ items, ∃ image, f item = .ok image) :
    ∃ images, items.mapM f = .ok images := by
  induction items with
  | nil =>
      exact ⟨[], rfl⟩
  | cons first rest inductionHypothesis =>
      rw [List.forall_mem_cons] at total
      obtain ⟨⟨image, isFirst⟩, restTotal⟩ := total
      obtain ⟨images, isRest⟩ := inductionHypothesis restTotal
      rw [List.mapM_cons, isFirst, isRest]
      exact ⟨_, rfl⟩

/-- `listMessages` by batch reference and tag. -/
def attachedMessages
    (store : Store)
    (batchRef contentTag : Bytes32) : List MessageRow :=
  Table.orderBy MessageRow.listOrder
    (store.messages.select fun row =>
      row.batchRef = some batchRef && row.contentTag = contentTag)

/-- `listMessages` of the confirmed rows of a tag. -/
def confirmedMessages
    (store : Store)
    (contentTag : Bytes32) : List MessageRow :=
  Table.orderBy MessageRow.listOrder
    (store.messages.select fun row =>
      row.contentTag = contentTag && row.status = .confirmed)

theorem mem_attachedMessages
    {store : Store}
    {batchRef contentTag : Bytes32}
    {row : MessageRow} :
    row ∈ store.attachedMessages batchRef contentTag ↔
      row ∈ store.messages.rows ∧
        row.batchRef = some batchRef ∧
        row.contentTag = contentTag := by
  simp [attachedMessages]

/-- The pending rows of a tag are the rows that say so. -/
theorem mem_pendingRows
    {store : Store}
    {tag : Bytes32}
    {row : MessageRow} :
    row ∈ store.pendingRows tag ↔
      row ∈ store.messages.rows ∧
        row.contentTag = tag ∧
        row.status = .pending := by
  simp [pendingRows]

/-- What a successful `insertPending` did. -/
theorem insertPending_ok
    {store next : Store}
    {row : StoreTxnPendingRow}
    (inserted : store.insertPending row = .ok next) :
    row.nonce ≤ MAX_NONCE ∧
      next = store.putMessage row.toMessageRow ∧
      ∀ existing,
        store.message? (row.sender, row.nonce) = some existing →
        existing.status = .reorged := by
  unfold insertPending at inserted
  split at inserted
  · rename_i inRange
    split at inserted
    · rename_i free
      cases inserted
      exact ⟨inRange, rfl, by simp [free]⟩
    · rename_i existing occupied
      split at inserted
      · rename_i reorged
        cases inserted
        refine ⟨inRange, rfl, ?_⟩
        intro other found
        rw [occupied, Option.some.injEq] at found
        exact found ▸ reorged
      · cases inserted
  · cases inserted

/-- What a successful `upsertObserved` did: nothing on a confirmed row of the
same message, and otherwise it stored the observed row. -/
theorem upsertObserved_ok
    {store next : Store}
    {row : MessageRow}
    (observed : store.upsertObserved row = .ok next) :
    row.nonce ≤ MAX_NONCE ∧
      ((next = store ∧
          ∃ existing,
            store.message? row.key = some existing ∧
            existing.messageHash = row.messageHash ∧
            existing.status = .confirmed) ∨
        (next = store.putMessage row ∧
          ∀ existing,
            store.message? row.key = some existing →
            existing.messageHash = row.messageHash ∧
            existing.status ≠ .confirmed)) := by
  unfold upsertObserved at observed
  split at observed
  · rename_i inRange
    refine ⟨inRange, ?_⟩
    split at observed
    · rename_i free
      cases observed
      exact .inr ⟨rfl, by simp [free]⟩
    · rename_i existing occupied
      split at observed
      · cases observed
      · rename_i sameHash
        rw [ne_eq, not_not] at sameHash
        split at observed
        · rename_i confirmed
          cases observed
          exact .inl ⟨rfl, existing, occupied, sameHash, confirmed⟩
        · rename_i notConfirmed
          cases observed
          refine .inr ⟨rfl, ?_⟩
          intro other found
          rw [occupied, Option.some.injEq] at found
          exact found ▸ ⟨sameHash, notConfirmed⟩
  · cases observed

/-- `upsertObserved` succeeds over a row of the same message. -/
theorem upsertObserved_succeeds
    {store : Store}
    {row : MessageRow}
    (inRange : row.nonce ≤ MAX_NONCE)
    (sameHash :
      ∀ existing, store.message? row.key = some existing →
        existing.messageHash = row.messageHash) :
    ∃ next, store.upsertObserved row = .ok next := by
  unfold upsertObserved
  rw [if_pos inRange]
  cases found : store.message? row.key with
  | none =>
      exact ⟨_, rfl⟩
  | some existing =>
      dsimp only
      rw [if_neg (not_not.mpr (sameHash existing found))]
      split <;> exact ⟨_, rfl⟩

/-- `upsertObserved` touches the row of the observed slot only. -/
theorem message?_upsertObserved_of_ne
    {store next : Store}
    {row : MessageRow}
    {key : MessageKey}
    (observed : store.upsertObserved row = .ok next)
    (other : row.key ≠ key) :
    next.message? key = store.message? key := by
  rcases (upsertObserved_ok observed).2 with ⟨rfl, -⟩ | ⟨rfl, -⟩
  · rfl
  · simp [message?_putMessage, other]

/-- `upsertObserved` leaves the batch rows alone. -/
theorem batches_upsertObserved
    {store next : Store}
    {row : MessageRow}
    (observed : store.upsertObserved row = .ok next) :
    next.batches = store.batches := by
  rcases (upsertObserved_ok observed).2 with ⟨rfl, -⟩ | ⟨rfl, -⟩ <;> rfl

/-- `upsertObserved` leaves the nonce tracker alone. -/
theorem nonces_upsertObserved
    {store next : Store}
    {row : MessageRow}
    (observed : store.upsertObserved row = .ok next) :
    next.nonces = store.nonces := by
  rcases (upsertObserved_ok observed).2 with ⟨rfl, -⟩ | ⟨rfl, -⟩ <;> rfl

end Store

end Bam
