import Bam.Store.Nonces

namespace Bam

/-!
# The Poster's reorg watcher

A tick lists the confirmed batches of the window, asks the block source about
each of their transactions, and marks and re-enqueues the batches whose
transaction is gone, one store transaction for each batch row.
-/

def MIN_REORG_WINDOW : Int := 4

def MAX_REORG_WINDOW : Int := 128

def DEFAULT_REORG_WINDOW : Int := 32

/-- `clampReorgWindow` of a floored number; `none` is one that is not finite. -/
def clampReorgWindow : Option Int → Int
  | none => DEFAULT_REORG_WINDOW
  | some blocks => min (max blocks MIN_REORG_WINDOW) MAX_REORG_WINDOW

/-- The candidates of a tick at a head. -/
def reorgCandidates
    (chainId : Nat)
    (reorgWindowBlocks : Option Int)
    (store : Store)
    (head : Nat) : List BatchRow :=
  (store.listBatches {
      contentTag := none
      chainId := some chainId
      status := none
      sinceBlock :=
        some ((head : Int) - clampReorgWindow reorgWindowBlocks) }).filter
    fun batch => batch.status = .confirmed && batch.blockNumber.isSome

/-- The pending row a dropped message is re-enqueued as. -/
def requeuedMessage
    (chainId : Nat)
    (contentTag : Bytes32)
    (ingestedAt : Int)
    (message : MessageRow)
    (seq : Nat) : MessageRow where
  messageId := none
  sender := message.sender
  nonce := message.nonce
  contentTag := contentTag
  contents := message.contents
  signature := message.signature
  messageHash := message.messageHash
  status := .pending
  batchRef := none
  chainId := some chainId
  ingestedAt := some ingestedAt
  ingestSeq := some seq
  blockNumber := none
  txIndex := none
  messageIndexWithinBatch := none

/-- The re-enqueue loop of `reorgBatch`. -/
def requeueMessages
    (chainId : Nat)
    (contentTag : Bytes32)
    (ingestedAt : Int) :
    List MessageRow → Store → Except StoreError Store
  | [], store => .ok store
  | message :: rest, store =>
      match store.getBySenderNonce message.sender message.nonce with
      | .error error => .error error
      | .ok existing =>
          if existing.any fun row => row.status = .pending then
            requeueMessages chainId contentTag ingestedAt rest store
          else
            let (sequenced, seq) := store.nextIngestSeq contentTag
            match sequenced.upsertObserved
                (requeuedMessage chainId contentTag ingestedAt message
                  seq) with
            | .error error => .error error
            | .ok next =>
                requeueMessages chainId contentTag ingestedAt rest next

/-- `reorgBatch`. -/
def reorgBatch
    (chainId : Nat)
    (store : Store)
    (batch : BatchRow)
    (invalidatedAt ingestedAt : Int) : Except StoreError Store :=
  let attached := store.attachedMessages batch.txHash batch.contentTag
  match store.markReorged chainId batch.txHash invalidatedAt with
  | .error error => .error error
  | .ok marked =>
      let ordered :=
        Table.orderBy
          (fun row : MessageRow => [((row.ingestSeq.getD 0 : Nat) : Int)])
          attached
      requeueMessages chainId batch.contentTag ingestedAt ordered marked

/-- The candidates are confirmed batches of the chain within the window. -/
theorem mem_reorgCandidates
    {chainId : Nat}
    {reorgWindowBlocks : Option Int}
    {store : Store}
    {head : Nat}
    {batch : BatchRow} :
    batch ∈ reorgCandidates chainId reorgWindowBlocks store head ↔
      batch ∈ store.batches.rows ∧
        batch.chainId = chainId ∧
        batch.status = .confirmed ∧
        ∃ block,
          batch.blockNumber = some block ∧
          (head : Int) - clampReorgWindow reorgWindowBlocks ≤
            (block : Int) := by
  unfold reorgCandidates
  rw [List.mem_filter, Store.mem_listBatches]
  cases blockNumber : batch.blockNumber with
  | none =>
      simp [BatchesQuery.admits, blockNumber]
  | some block =>
      simp [BatchesQuery.admits, blockNumber, and_comm, and_left_comm]

@[simp] theorem key_requeuedMessage
    (chainId : Nat)
    (contentTag : Bytes32)
    (ingestedAt : Int)
    (message : MessageRow)
    (seq : Nat) :
    (requeuedMessage chainId contentTag ingestedAt message seq).key =
      message.key :=
  rfl

section Requeue

variable {chainId : Nat}
variable {contentTag : Bytes32}
variable {ingestedAt : Int}

/-- What an iteration of the re-enqueue loop does: a pending or confirmed row
stays, and otherwise the slot holds the pending row of the message. -/
theorem requeueMessages_cons
    {message : MessageRow}
    {rest : List MessageRow}
    {store next : Store}
    (requeued :
      requeueMessages chainId contentTag ingestedAt (message :: rest)
        store = .ok next) :
    ∃ middle,
      requeueMessages chainId contentTag ingestedAt rest middle =
          .ok next ∧
        middle.batches = store.batches ∧
        middle.nonces = store.nonces ∧
        (∀ key, message.key ≠ key →
          middle.message? key = store.message? key) ∧
        ((∃ row,
            store.message? message.key = some row ∧
            middle.message? message.key = some row ∧
            (row.status = .pending ∨ row.status = .confirmed)) ∨
          ∃ seq,
            middle.message? message.key =
              some (requeuedMessage chainId contentTag ingestedAt
                message seq)) := by
  rw [requeueMessages] at requeued
  unfold Store.getBySenderNonce at requeued
  by_cases inRange : message.nonce ≤ MAX_NONCE
  · rw [if_pos inRange] at requeued
    dsimp only at requeued
    split at requeued
    · rename_i isPending
      cases found : store.message? (message.sender, message.nonce) with
      | none =>
          rw [found] at isPending
          cases isPending
      | some row =>
          rw [found] at isPending
          exact ⟨store, requeued, rfl, rfl, fun _ _ => rfl,
            .inl ⟨row, found, found,
              .inl (of_decide_eq_true isPending)⟩⟩
    · split at requeued
      · cases requeued
      rename_i middle observed
      have otherSlots :
          ∀ key, message.key ≠ key →
            middle.message? key = store.message? key :=
        fun key otherSlot =>
          (Store.message?_upsertObserved_of_ne observed otherSlot).trans
            (Store.message?_nextIngestSeq store contentTag key)
      refine ⟨middle, requeued,
        (Store.batches_upsertObserved observed).trans
          (Store.batches_nextIngestSeq store contentTag),
        (Store.nonces_upsertObserved observed).trans
          (Store.nonces_nextIngestSeq store contentTag), otherSlots, ?_⟩
      rcases (Store.upsertObserved_ok observed).2 with
        ⟨rfl, existing, isExisting, -, final⟩ | ⟨rfl, -⟩
      · exact .inl ⟨existing, isExisting, isExisting, .inr final⟩
      · refine .inr ⟨(store.nextIngestSeq contentTag).2, ?_⟩
        rw [Store.message?_putMessage, key_requeuedMessage, if_pos rfl]
  · rw [if_neg inRange] at requeued
    cases requeued

theorem batches_requeueMessages
    {messages : List MessageRow}
    {store next : Store}
    (requeued :
      requeueMessages chainId contentTag ingestedAt messages store =
        .ok next) :
    next.batches = store.batches := by
  induction messages generalizing store with
  | nil =>
      cases requeued
      rfl
  | cons message rest inductionHypothesis =>
      obtain ⟨middle, later, sameBatches, -⟩ :=
        requeueMessages_cons requeued
      exact (inductionHypothesis later).trans sameBatches

theorem nonces_requeueMessages
    {messages : List MessageRow}
    {store next : Store}
    (requeued :
      requeueMessages chainId contentTag ingestedAt messages store =
        .ok next) :
    next.nonces = store.nonces := by
  induction messages generalizing store with
  | nil =>
      cases requeued
      rfl
  | cons message rest inductionHypothesis =>
      obtain ⟨middle, later, -, sameNonces, -⟩ :=
        requeueMessages_cons requeued
      exact (inductionHypothesis later).trans sameNonces

/-- The re-enqueue loop touches the slots of its messages only. -/
theorem message?_requeueMessages_of_ne
    {messages : List MessageRow}
    {store next : Store}
    {key : MessageKey}
    (requeued :
      requeueMessages chainId contentTag ingestedAt messages store =
        .ok next)
    (other : ∀ message ∈ messages, message.key ≠ key) :
    next.message? key = store.message? key := by
  induction messages generalizing store with
  | nil =>
      cases requeued
      rfl
  | cons message rest inductionHypothesis =>
      rw [List.forall_mem_cons] at other
      obtain ⟨middle, later, -, -, otherSlots, -⟩ :=
        requeueMessages_cons requeued
      exact (inductionHypothesis later other.2).trans
        (otherSlots key other.1)

/-- The slot of a re-enqueued message holds its pending row, unless a pending or
confirmed row held it. -/
theorem message?_requeueMessages_of_mem
    {messages : List MessageRow}
    {store next : Store}
    {message : MessageRow}
    (requeued :
      requeueMessages chainId contentTag ingestedAt messages store =
        .ok next)
    (distinct : (messages.map MessageRow.key).Nodup)
    (member : message ∈ messages) :
    (∃ row,
        store.message? message.key = some row ∧
          next.message? message.key = some row ∧
          (row.status = .pending ∨ row.status = .confirmed)) ∨
      ∃ seq,
        next.message? message.key =
          some (requeuedMessage chainId contentTag ingestedAt message
            seq) := by
  induction messages generalizing store with
  | nil =>
      cases member
  | cons first rest inductionHypothesis =>
      rw [List.map_cons, List.nodup_cons] at distinct
      obtain ⟨middle, later, -, -, otherSlots, ownSlot⟩ :=
        requeueMessages_cons requeued
      rcases List.mem_cons.mp member with isFirst | inRest
      · subst isFirst
        have untouched :
            next.message? message.key = middle.message? message.key :=
          message?_requeueMessages_of_ne later
            fun other otherMember sameKey =>
              distinct.1 (sameKey ▸ List.mem_map_of_mem otherMember)
        rcases ownSlot with ⟨row, found, kept, status⟩ | ⟨seq, stored⟩
        · exact .inl ⟨row, found, untouched.trans kept, status⟩
        · exact .inr ⟨seq, untouched.trans stored⟩
      · have otherSlot : first.key ≠ message.key := fun sameKey =>
          distinct.1 (sameKey ▸ List.mem_map_of_mem inRest)
        rw [← otherSlots message.key otherSlot]
        exact inductionHypothesis later distinct.2 inRest

/-- Re-enqueueing succeeds over rows of the same messages. -/
theorem requeueMessages_succeeds
    {messages : List MessageRow}
    {store : Store}
    (distinct : (messages.map MessageRow.key).Nodup)
    (inRange : ∀ message ∈ messages, message.nonce ≤ MAX_NONCE)
    (sameHash :
      ∀ message ∈ messages, ∀ row,
        store.message? message.key = some row →
        row.messageHash = message.messageHash) :
    ∃ next,
      requeueMessages chainId contentTag ingestedAt messages store =
        .ok next := by
  induction messages generalizing store with
  | nil =>
      exact ⟨store, rfl⟩
  | cons first rest inductionHypothesis =>
      rw [List.map_cons, List.nodup_cons] at distinct
      rw [List.forall_mem_cons] at inRange sameHash
      have restSucceeds :
          ∀ middle : Store,
            (∀ key, first.key ≠ key →
              middle.message? key = store.message? key) →
            ∃ next,
              requeueMessages chainId contentTag ingestedAt rest middle =
                .ok next := by
        intro middle untouched
        apply inductionHypothesis distinct.2 inRange.2
        intro message member row found
        have otherSlot : first.key ≠ message.key := fun sameKey =>
          distinct.1 (sameKey ▸ List.mem_map_of_mem member)
        exact sameHash.2 message member row
          ((untouched message.key otherSlot).symm.trans found)
      rw [requeueMessages, Store.getBySenderNonce, if_pos inRange.1]
      dsimp only
      split
      · exact restSucceeds store fun _ _ => rfl
      · obtain ⟨middle, observed⟩ :=
          @Store.upsertObserved_succeeds
            (store.nextIngestSeq contentTag).1
            (requeuedMessage chainId contentTag ingestedAt first
              (store.nextIngestSeq contentTag).2)
            inRange.1 sameHash.1
        rw [observed]
        exact restSucceeds middle fun key otherSlot =>
          (Store.message?_upsertObserved_of_ne observed otherSlot).trans
            (Store.message?_nextIngestSeq store contentTag key)

end Requeue

/-- A message row the watcher finds attached to a batch. -/
def MessageRow.AttachedTo
    (row : MessageRow)
    (batch : BatchRow) : Prop :=
  row.batchRef = some batch.txHash ∧ row.contentTag = batch.contentTag

section ReorgBatch

variable {chainId : Nat}
variable {store next : Store}
variable {batch : BatchRow}
variable {invalidatedAt ingestedAt : Int}

/-- The rows attached to a batch, in the order they are re-enqueued. -/
def orderedAttached
    (store : Store)
    (batch : BatchRow) : List MessageRow :=
  Table.orderBy
    (fun row : MessageRow => [((row.ingestSeq.getD 0 : Nat) : Int)])
    (store.attachedMessages batch.txHash batch.contentTag)

theorem mem_orderedAttached
    {row : MessageRow} :
    row ∈ orderedAttached store batch ↔
      row ∈ store.messages.rows ∧ row.AttachedTo batch := by
  rw [orderedAttached, Table.mem_orderBy, Store.mem_attachedMessages,
    MessageRow.AttachedTo]

theorem orderedAttached_distinct
    (store : Store)
    (batch : BatchRow) :
    ((orderedAttached store batch).map MessageRow.key).Nodup := by
  have selected :
      ((store.messages.select fun row =>
          row.batchRef = some batch.txHash &&
            row.contentTag = batch.contentTag).map
              MessageRow.key).Nodup :=
    store.messages.keysNodup.sublist (List.filter_sublist.map _)
  have rearranged :
      (orderedAttached store batch).Perm
        (store.messages.select fun row =>
          row.batchRef = some batch.txHash &&
            row.contentTag = batch.contentTag) :=
    (Table.orderBy_perm _ _).trans (Table.orderBy_perm _ _)
  exact (rearranged.map MessageRow.key).nodup_iff.mpr selected

/-- `reorgBatch` is a mark followed by the re-enqueue loop. -/
theorem reorgBatch_ok
    (reorged :
      reorgBatch chainId store batch invalidatedAt ingestedAt =
        .ok next) :
    ∃ marked,
      store.markReorged chainId batch.txHash invalidatedAt =
          .ok marked ∧
        requeueMessages chainId batch.contentTag ingestedAt
            (orderedAttached store batch) marked = .ok next := by
  unfold reorgBatch at reorged
  dsimp only at reorged
  split at reorged
  · cases reorged
  · rename_i marked isMarked
    exact ⟨marked, isMarked, reorged⟩

/-- The slot of a row that is not attached to the batch. -/
theorem message?_reorgBatch_of_not_attached
    {key : MessageKey}
    {row : MessageRow}
    (reorged :
      reorgBatch chainId store batch invalidatedAt ingestedAt =
        .ok next)
    (found : store.message? key = some row)
    (unattached : ¬ row.AttachedTo batch) :
    next.message? key =
      some (if row.isConfirmedIn chainId batch.txHash then
        row.markedReorged else row) := by
  obtain ⟨marked, isMarked, requeued⟩ := reorgBatch_ok reorged
  have untouched : next.message? key = marked.message? key :=
    message?_requeueMessages_of_ne requeued (by
      intro other member ofSlot
      obtain ⟨inTable, attached⟩ := mem_orderedAttached.mp member
      have isRow : other = row := by
        rw [Table.mem_rows_iff, ofSlot] at inTable
        exact Option.some.inj (inTable.symm.trans found)
      exact unattached (isRow ▸ attached))
  rw [untouched, Store.message?_markReorged isMarked, found,
    Option.map_some]

/-- The slot of a row attached to the batch: re-enqueued, or a pending row, or
a confirmed row of another chain. -/
theorem message?_reorgBatch_of_attached
    {key : MessageKey}
    {row : MessageRow}
    (reorged :
      reorgBatch chainId store batch invalidatedAt ingestedAt =
        .ok next)
    (found : store.message? key = some row)
    (attached : row.AttachedTo batch) :
    (∃ seq,
        next.message? key =
          some (requeuedMessage chainId batch.contentTag ingestedAt row
            seq)) ∨
      next.message? key = some row ∧
        (row.status = .pending ∨
          row.status = .confirmed ∧ row.chainId ≠ some chainId) := by
  obtain ⟨marked, isMarked, requeued⟩ := reorgBatch_ok reorged
  have ofSlot : row.key = key := Store.key_of_message? found
  subst ofSlot
  have member : row ∈ orderedAttached store batch :=
    mem_orderedAttached.mpr ⟨Table.mem_of_get? found, attached⟩
  have afterMark := Store.message?_markReorged isMarked row.key
  rw [found, Option.map_some] at afterMark
  rcases message?_requeueMessages_of_mem requeued
      (orderedAttached_distinct store batch) member with
    ⟨held, isHeld, kept, status⟩ | requeuedRow
  · rw [afterMark, Option.some.injEq] at isHeld
    subst isHeld
    by_cases inTx : row.isConfirmedIn chainId batch.txHash = true
    · rw [if_pos inTx] at status
      rcases status with status | status <;> cases status
    · rw [if_neg inTx] at kept status
      refine .inr ⟨kept, ?_⟩
      rcases status with pending | confirmed
      · exact .inl pending
      · refine .inr ⟨confirmed, ?_⟩
        intro sameChain
        exact inTx (MessageRow.isConfirmedIn_iff.mpr
          ⟨attached.1, sameChain, confirmed⟩)
  · exact .inl requeuedRow

/-- A free slot stays free. -/
theorem message?_reorgBatch_of_none
    {key : MessageKey}
    (reorged :
      reorgBatch chainId store batch invalidatedAt ingestedAt =
        .ok next)
    (free : store.message? key = none) :
    next.message? key = none := by
  obtain ⟨marked, isMarked, requeued⟩ := reorgBatch_ok reorged
  have untouched : next.message? key = marked.message? key :=
    message?_requeueMessages_of_ne requeued (by
      intro other member ofSlot
      obtain ⟨inTable, -⟩ := mem_orderedAttached.mp member
      rw [Table.mem_rows_iff, ofSlot] at inTable
      rw [Store.message?, inTable] at free
      cases free)
  rw [untouched, Store.message?_markReorged isMarked, free]
  rfl

/-- A row that is confirmed after `reorgBatch` was there before. -/
theorem message?_of_confirmed_reorgBatch
    {key : MessageKey}
    {row : MessageRow}
    (reorged :
      reorgBatch chainId store batch invalidatedAt ingestedAt =
        .ok next)
    (found : next.message? key = some row)
    (confirmed : row.status = .confirmed) :
    store.message? key = some row := by
  cases before : store.message? key with
  | none =>
      rw [message?_reorgBatch_of_none reorged before] at found
      cases found
  | some old =>
      by_cases attached : old.AttachedTo batch
      · rcases message?_reorgBatch_of_attached reorged before attached with
          ⟨seq, requeued⟩ | ⟨kept, -⟩
        · rw [requeued, Option.some.injEq] at found
          subst found
          cases confirmed
        · exact kept.symm.trans found
      · rw [message?_reorgBatch_of_not_attached reorged before attached,
          Option.some.injEq] at found
        split at found
        · subst found
          cases confirmed
        · rw [found]

/-- No row is confirmed in the marked transaction after `reorgBatch`. -/
theorem not_isConfirmedIn_reorgBatch
    {key : MessageKey}
    {row : MessageRow}
    (reorged :
      reorgBatch chainId store batch invalidatedAt ingestedAt =
        .ok next)
    (found : next.message? key = some row) :
    row.isConfirmedIn chainId batch.txHash = false := by
  by_contra stillConfirmed
  have inTx := Bool.of_not_eq_false stillConfirmed
  obtain ⟨ofTx, ofChain, confirmed⟩ :=
    MessageRow.isConfirmedIn_iff.mp inTx
  have before := message?_of_confirmed_reorgBatch reorged found confirmed
  by_cases attached : row.AttachedTo batch
  · rcases message?_reorgBatch_of_attached reorged before attached with
      ⟨seq, requeued⟩ | ⟨-, pending | ⟨-, otherChain⟩⟩
    · rw [requeued, Option.some.injEq] at found
      rw [← found] at confirmed
      cases confirmed
    · rw [pending] at confirmed
      cases confirmed
    · exact otherChain ofChain
  · rw [message?_reorgBatch_of_not_attached reorged before attached,
      if_pos inTx, Option.some.injEq] at found
    rw [← found] at confirmed
    cases confirmed

/-- `reorgBatch` marks the batch rows and touches nothing else of them. -/
theorem batch?_reorgBatch
    (reorged :
      reorgBatch chainId store batch invalidatedAt ingestedAt =
        .ok next)
    (key : BatchKey) :
    next.batch? key =
      (store.batch? key).map fun other =>
        if other.isOf chainId batch.txHash then
          other.markedReorged invalidatedAt
        else other := by
  obtain ⟨marked, isMarked, requeued⟩ := reorgBatch_ok reorged
  rw [Store.batch?, batches_requeueMessages requeued]
  exact Store.batch?_markReorged isMarked key

theorem nonces_reorgBatch
    (reorged :
      reorgBatch chainId store batch invalidatedAt ingestedAt =
        .ok next) :
    next.nonces = store.nonces := by
  obtain ⟨marked, isMarked, requeued⟩ := reorgBatch_ok reorged
  rw [nonces_requeueMessages requeued, Store.nonces_markReorged isMarked]

/-- `reorgBatch` succeeds for a batch of the store whose messages carry valid
nonces. -/
theorem reorgBatch_succeeds
    {recorded : BatchRow}
    (member : recorded ∈ store.batches.rows)
    (ofTx : recorded.isOf chainId batch.txHash = true)
    (inRange :
      ∀ row ∈ store.messages.rows, row.nonce ≤ MAX_NONCE)
    (invalidatedAt ingestedAt : Int) :
    ∃ next,
      reorgBatch chainId store batch invalidatedAt ingestedAt =
        .ok next := by
  obtain ⟨marked, isMarked⟩ :=
    Store.markReorged_ok invalidatedAt member ofTx
  rw [reorgBatch, isMarked]
  apply requeueMessages_succeeds (orderedAttached_distinct store batch)
  · intro row isAttached
    exact inRange row (mem_orderedAttached.mp isAttached).1
  · intro row isAttached held found
    have inTable := (mem_orderedAttached.mp isAttached).1
    rw [Table.mem_rows_iff] at inTable
    rw [Store.message?_markReorged isMarked, Store.message?, inTable,
      Option.map_some, Option.some.injEq] at found
    rw [← found]
    split <;> rfl

end ReorgBatch

end Bam
