import Bam.System.Sharing
import Bam.System.Steps

namespace Bam

/-!
# Chains that keep clear of each other

A chain cannot tell two stores apart that hold the same rows of it and the same
trackers its calls go by.  Its own calls answer alike over such stores, and a
call that keeps clear of them cannot be noticed.
-/

/-- What the calls of a chain and the calls of all others go by, with nothing
shared between them. -/
structure Borders where
  chain : Nat
  own : List Footprint
  theirs : List Footprint
  clear :
    ∀ their ∈ theirs, ∀ footprint ∈ own, their.ClearOf footprint

/-- A message row lies within some footprints. -/
structure MessageRow.Traced
    (footprints : List Footprint)
    (row : MessageRow) : Prop where
  slot : ∃ footprint ∈ footprints, row.key ∈ footprint.slots
  attached :
    ∀ txHash,
      row.batchRef = some txHash →
      ∃ footprint ∈ footprints,
        (txHash, row.contentTag) ∈ footprint.attaches
  queued :
    row.status = .pending →
    ∃ footprint ∈ footprints, row.contentTag ∈ footprint.queues

namespace Borders

/-- The footprints of the side a message row belongs to. -/
def sideOf
    (borders : Borders)
    (row : MessageRow) : List Footprint :=
  if row.ofChain borders.chain then borders.own else borders.theirs

/-- Every message row lies within the footprints of its side. -/
def Bordered
    (borders : Borders)
    (store : Store) : Prop :=
  ∀ row ∈ store.messages.rows, row.Traced (borders.sideOf row)

/-- Stores the chain cannot tell apart. -/
structure Alike
    (borders : Borders)
    (store other : Store) : Prop where
  bordered : borders.Bordered store
  otherBordered : borders.Bordered other
  messages :
    store.messages.select (MessageRow.ofChain borders.chain) =
      other.messages.select (MessageRow.ofChain borders.chain)
  batches :
    store.batches.select (BatchRow.ofChain borders.chain) =
      other.batches.select (BatchRow.ofChain borders.chain)
  nonces :
    ∀ footprint ∈ borders.own, ∀ sender ∈ footprint.senders,
      store.getNonce sender = other.getNonce sender
  seqs :
    ∀ footprint ∈ borders.own, ∀ tag ∈ footprint.queues,
      store.tagSeq.get? tag = other.tagSeq.get? tag

/-- Stores the chain cannot tell apart, with equal answers. -/
def AlikeWith
    {Answer : Type}
    (borders : Borders)
    (first second : Store × Answer) : Prop :=
  borders.Alike first.1 second.1 ∧ first.2 = second.2

section Reads

variable {borders : Borders}
variable {store other : Store}
variable {row : MessageRow}
variable {footprint : Footprint}

theorem sideOf_own
    (isOwn : row.ofChain borders.chain = true) :
    borders.sideOf row = borders.own :=
  if_pos isOwn

theorem sideOf_their
    (isTheirs : row.ofChain borders.chain = false) :
    borders.sideOf row = borders.theirs := by
  simp [sideOf, isTheirs]

theorem traced_own
    (bordered : borders.Bordered store)
    (member : row ∈ store.messages.rows)
    (isOwn : row.ofChain borders.chain = true) :
    row.Traced borders.own := by
  have traced := bordered row member
  rwa [sideOf_own isOwn] at traced

theorem traced_theirs
    (bordered : borders.Bordered store)
    (member : row ∈ store.messages.rows)
    (isTheirs : row.ofChain borders.chain = false) :
    row.Traced borders.theirs := by
  have traced := bordered row member
  rwa [sideOf_their isTheirs] at traced

/-- A row in a slot of the chain is a row of the chain. -/
theorem ofChain_of_slot
    (bordered : borders.Bordered store)
    (member : row ∈ store.messages.rows)
    (isOwn : footprint ∈ borders.own)
    (slot : row.key ∈ footprint.slots) :
    row.ofChain borders.chain = true := by
  cases side : row.ofChain borders.chain with
  | true =>
      rfl
  | false =>
      obtain ⟨their, isTheirs, theirSlot⟩ :=
        (traced_theirs bordered member side).slot
      exact absurd slot
        ((borders.clear their isTheirs footprint isOwn).slots _
          theirSlot)

/-- A row of a sender the chain tracks is a row of the chain. -/
theorem ofChain_of_sender
    (bordered : borders.Bordered store)
    (member : row ∈ store.messages.rows)
    (isOwn : footprint ∈ borders.own)
    (sender : row.sender ∈ footprint.senders) :
    row.ofChain borders.chain = true := by
  cases side : row.ofChain borders.chain with
  | true =>
      rfl
  | false =>
      obtain ⟨their, isTheirs, theirSlot⟩ :=
        (traced_theirs bordered member side).slot
      exact absurd sender
        ((borders.clear their isTheirs footprint isOwn).senders _
          theirSlot)

/-- A row attached where the chain watches is a row of the chain. -/
theorem ofChain_of_watched
    {txHash : Bytes32}
    (bordered : borders.Bordered store)
    (member : row ∈ store.messages.rows)
    (attached : row.batchRef = some txHash)
    (isOwn : footprint ∈ borders.own)
    (watched : (txHash, row.contentTag) ∈ footprint.watches) :
    row.ofChain borders.chain = true := by
  cases side : row.ofChain borders.chain with
  | true =>
      rfl
  | false =>
      obtain ⟨their, isTheirs, theirPlace⟩ :=
        (traced_theirs bordered member side).attached txHash attached
      exact absurd watched
        ((borders.clear their isTheirs footprint isOwn).attaches _
          theirPlace)

/-- A pending row of a pool the chain reads is a row of the chain. -/
theorem ofChain_of_pooled
    (bordered : borders.Bordered store)
    (member : row ∈ store.messages.rows)
    (pending : row.status = .pending)
    (isOwn : footprint ∈ borders.own)
    (pooled : row.contentTag ∈ footprint.pools) :
    row.ofChain borders.chain = true := by
  cases side : row.ofChain borders.chain with
  | true =>
      rfl
  | false =>
      obtain ⟨their, isTheirs, theirTag⟩ :=
        (traced_theirs bordered member side).queued pending
      exact absurd pooled
        ((borders.clear their isTheirs footprint isOwn).queues _
          theirTag).2

/-- A row attached where another chain watches is no row of the chain. -/
theorem theirs_of_watched
    {txHash : Bytes32}
    (bordered : borders.Bordered store)
    (member : row ∈ store.messages.rows)
    (attached : row.batchRef = some txHash)
    (isTheirs : footprint ∈ borders.theirs)
    (watched : (txHash, row.contentTag) ∈ footprint.watches) :
    row.ofChain borders.chain = false := by
  cases side : row.ofChain borders.chain with
  | false =>
      rfl
  | true =>
      obtain ⟨own, isOwn, ownPlace⟩ :=
        (traced_own bordered member side).attached txHash attached
      exact absurd ownPlace
        ((borders.clear footprint isTheirs own isOwn).watches _ watched)

namespace Alike

/-- The chain finds the same row in each of its slots. -/
theorem message?_eq
    {slot : MessageKey}
    (alike : borders.Alike store other)
    (isOwn : footprint ∈ borders.own)
    (member : slot ∈ footprint.slots) :
    store.message? slot = other.message? slot := by
  have inside
      {holder : Store}
      (bordered : borders.Bordered holder) :
      ∀ row ∈ holder.messages.rows,
        row.key = slot → row.ofChain borders.chain = true := by
    intro row isRow ofSlot
    exact ofChain_of_slot bordered isRow isOwn (ofSlot ▸ member)
  rw [Store.message?, Store.message?,
    Table.get?_of_select (inside alike.bordered),
    Table.get?_of_select (inside alike.otherBordered), alike.messages]

/-- The chain reads the same row from each of its slots. -/
theorem getBySenderNonce_eq
    {sender : Address}
    {nonce : Nat}
    (alike : borders.Alike store other)
    (isOwn : footprint ∈ borders.own)
    (member : (sender, nonce) ∈ footprint.slots) :
    store.getBySenderNonce sender nonce =
      other.getBySenderNonce sender nonce := by
  unfold Store.getBySenderNonce
  rw [alike.message?_eq isOwn member]

/-- The chain finds the same batch row under each of its keys. -/
theorem batch?_eq
    {key : BatchKey}
    (alike : borders.Alike store other)
    (ofChain : key.1 = borders.chain) :
    store.batch? key = other.batch? key := by
  have inside
      {holder : Store} :
      ∀ row ∈ holder.batches.rows,
        row.key = key → row.ofChain borders.chain = true := by
    intro row _ ofKey
    have sameChain : row.chainId = key.1 := congrArg Prod.fst ofKey
    simp [BatchRow.ofChain, sameChain, ofChain]
  rw [Store.batch?, Store.batch?, Table.get?_of_select inside,
    Table.get?_of_select inside, alike.batches]

/-- The chain lists the same batches. -/
theorem listBatches_eq
    {query : BatchesQuery}
    (alike : borders.Alike store other)
    (ofChain : query.chainId = some borders.chain) :
    store.listBatches query = other.listBatches query := by
  have inside
      {holder : Store} :
      ∀ row ∈ holder.batches.rows,
        query.admits row = true →
          row.ofChain borders.chain = true := by
    intro row _ admitted
    simp only [BatchesQuery.admits, ofChain, Option.all_some,
      Bool.and_eq_true] at admitted
    exact admitted.1.1.2
  rw [Store.listBatches, Store.listBatches,
    Table.select_of_select inside, Table.select_of_select inside,
    alike.batches]

/-- The chain reads the same messages where it watches. -/
theorem attachedMessages_eq
    {txHash contentTag : Bytes32}
    (alike : borders.Alike store other)
    (isOwn : footprint ∈ borders.own)
    (watched : (txHash, contentTag) ∈ footprint.watches) :
    store.attachedMessages txHash contentTag =
      other.attachedMessages txHash contentTag := by
  have inside
      {holder : Store}
      (bordered : borders.Bordered holder) :
      ∀ row ∈ holder.messages.rows,
        (row.batchRef = some txHash && row.contentTag = contentTag) =
            true →
          row.ofChain borders.chain = true := by
    intro row isRow selected
    simp only [Bool.and_eq_true, decide_eq_true_eq] at selected
    exact ofChain_of_watched bordered isRow selected.1 isOwn
      (selected.2 ▸ watched)
  rw [Store.attachedMessages, Store.attachedMessages,
    Table.select_of_select (inside alike.bordered),
    Table.select_of_select (inside alike.otherBordered),
    alike.messages]

/-- The chain reads the same pools. -/
theorem pendingRows_eq
    {tag : Bytes32}
    (alike : borders.Alike store other)
    (isOwn : footprint ∈ borders.own)
    (pooled : tag ∈ footprint.pools) :
    store.pendingRows tag = other.pendingRows tag := by
  have inside
      {holder : Store}
      (bordered : borders.Bordered holder) :
      ∀ row ∈ holder.messages.rows,
        (row.contentTag = tag && row.status = .pending) = true →
          row.ofChain borders.chain = true := by
    intro row isRow selected
    simp only [Bool.and_eq_true, decide_eq_true_eq] at selected
    exact ofChain_of_pooled bordered isRow selected.2 isOwn
      (selected.1 ▸ pooled)
  rw [Store.pendingRows, Store.pendingRows,
    Table.select_of_select (inside alike.bordered),
    Table.select_of_select (inside alike.otherBordered),
    alike.messages]

/-- The chain seeds a tracker with the same nonce. -/
theorem getMaxNonReorgedNonce_eq
    {sender : Address}
    (alike : borders.Alike store other)
    (isOwn : footprint ∈ borders.own)
    (tracked : sender ∈ footprint.senders) :
    store.getMaxNonReorgedNonce sender =
      other.getMaxNonReorgedNonce sender := by
  have inside
      {holder : Store}
      (bordered : borders.Bordered holder) :
      ∀ row ∈ holder.messages.rows,
        (row.sender = sender && row.status ≠ .reorged) = true →
          row.ofChain borders.chain = true := by
    intro row isRow selected
    simp only [Bool.and_eq_true, decide_eq_true_eq] at selected
    exact ofChain_of_sender bordered isRow isOwn
      (selected.1 ▸ tracked)
  rw [Store.getMaxNonReorgedNonce, Store.getMaxNonReorgedNonce,
    Table.select_of_select (inside alike.bordered),
    Table.select_of_select (inside alike.otherBordered),
    alike.messages]

end Alike

end Reads

section Writes

variable {borders : Borders}
variable {store other next : Store}

/-- A traced row keeps a store bordered. -/
theorem bordered_putMessage
    {row : MessageRow}
    (bordered : borders.Bordered store)
    (traced : row.Traced (borders.sideOf row)) :
    borders.Bordered (store.putMessage row) := by
  intro stored member
  rcases Table.mem_put.mp member with rfl | ⟨isOld, -⟩
  · exact traced
  · exact bordered stored isOld

/-- A mark keeps a message row on its side and within its footprints. -/
theorem traced_markedReorged
    {row : MessageRow}
    (traced : row.Traced (borders.sideOf row)) :
    row.markedReorged.Traced (borders.sideOf row.markedReorged) where
  slot := traced.slot
  attached := traced.attached
  queued := by
    intro pending
    cases pending

/-- Marks keep a store bordered. -/
theorem bordered_markReorged
    {chainId : Nat}
    {txHash : Bytes32}
    {invalidatedAt : Int}
    (bordered : borders.Bordered store)
    (marked :
      store.markReorged chainId txHash invalidatedAt = .ok next) :
    borders.Bordered next := by
  unfold Store.markReorged at marked
  split at marked
  · cases marked
    intro row member
    obtain ⟨old, isOld, rfl⟩ :=
      (@Table.mem_update _ _ _ _ _ _ MessageRow.key_markedReorged _).mp
        member
    split
    · exact traced_markedReorged (bordered old isOld)
    · exact bordered old isOld
  · cases marked

namespace Alike

/-- The chain stores a message row. -/
theorem putMessage
    {row : MessageRow}
    (alike : borders.Alike store other)
    (isOwn : row.ofChain borders.chain = true)
    (traced : row.Traced borders.own) :
    borders.Alike (store.putMessage row) (other.putMessage row) where
  bordered :=
    bordered_putMessage alike.bordered (by rwa [sideOf_own isOwn])
  otherBordered :=
    bordered_putMessage alike.otherBordered (by rwa [sideOf_own isOwn])
  messages := by
    rw [Store.putMessage, Store.putMessage, Table.select_put _ isOwn,
      Table.select_put _ isOwn, alike.messages]
  batches := alike.batches
  nonces := alike.nonces
  seqs := alike.seqs

/-- Another chain stores a message row. -/
theorem putTheirMessage
    {row : MessageRow}
    (alike : borders.Alike store other)
    (isTheirs : row.ofChain borders.chain = false)
    (traced : row.Traced borders.theirs) :
    borders.Alike (store.putMessage row) other where
  bordered :=
    bordered_putMessage alike.bordered (by rwa [sideOf_their isTheirs])
  otherBordered := alike.otherBordered
  messages := by
    rw [← alike.messages]
    apply Table.select_put_of_outside isTheirs
    intro stored member isOwn sameKey
    obtain ⟨own, isOwnPrint, ownSlot⟩ :=
      (traced_own alike.bordered member isOwn).slot
    obtain ⟨their, isTheirPrint, theirSlot⟩ := traced.slot
    exact (borders.clear their isTheirPrint own isOwnPrint).slots _
      theirSlot (sameKey ▸ ownSlot)
  batches := alike.batches
  nonces := alike.nonces
  seqs := alike.seqs

/-- The chain stores a batch row. -/
theorem putBatch
    {row : BatchRow}
    (alike : borders.Alike store other)
    (isOwn : row.chainId = borders.chain) :
    borders.Alike (store.putBatch row) (other.putBatch row) where
  bordered := alike.bordered
  otherBordered := alike.otherBordered
  messages := alike.messages
  batches := by
    have selected : row.ofChain borders.chain = true :=
      decide_eq_true isOwn
    rw [Store.putBatch, Store.putBatch, Table.select_put _ selected,
      Table.select_put _ selected, alike.batches]
  nonces := alike.nonces
  seqs := alike.seqs

/-- Another chain stores a batch row. -/
theorem putTheirBatch
    {row : BatchRow}
    (alike : borders.Alike store other)
    (isTheirs : row.chainId ≠ borders.chain) :
    borders.Alike (store.putBatch row) other where
  bordered := alike.bordered
  otherBordered := alike.otherBordered
  messages := alike.messages
  batches := by
    have outside : row.ofChain borders.chain = false :=
      decide_eq_false isTheirs
    rw [← alike.batches]
    apply Table.select_put_of_outside outside
    intro stored _ isOwn sameKey
    have sameChain : stored.chainId = row.chainId :=
      congrArg Prod.fst sameKey
    exact isTheirs (sameChain ▸ of_decide_eq_true isOwn)
  nonces := alike.nonces
  seqs := alike.seqs

/-- The chain upserts a batch row. -/
theorem upsertBatch
    (alike : borders.Alike store other)
    (row : BatchRow)
    (isOwn : row.chainId = borders.chain) :
    borders.Alike (store.upsertBatch row) (other.upsertBatch row) := by
  have sameRow : store.batch? row.key = other.batch? row.key :=
    alike.batch?_eq isOwn
  unfold Store.upsertBatch
  rw [sameRow]
  cases other.batch? row.key with
  | none =>
      exact alike.putBatch isOwn
  | some existing =>
      exact alike.putBatch isOwn

/-- Another chain upserts a batch row. -/
theorem upsertTheirBatch
    (alike : borders.Alike store other)
    (row : BatchRow)
    (isTheirs : row.chainId ≠ borders.chain) :
    borders.Alike (store.upsertBatch row) other := by
  unfold Store.upsertBatch
  cases store.batch? row.key with
  | none =>
      exact alike.putTheirBatch isTheirs
  | some existing =>
      exact alike.putTheirBatch isTheirs

/-- The chain tracks a nonce. -/
theorem setNonce
    (row : NonceTrackerRow)
    (alike : borders.Alike store other) :
    Purge.Alike borders.Alike (store.setNonce row)
      (other.setNonce row) := by
  unfold Store.setNonce
  split
  · refine .ok { alike with nonces := ?_ }
    intro footprint isOwn sender member
    have before := alike.nonces footprint isOwn sender member
    unfold Store.getNonce at before ⊢
    rw [Table.get?_put, Table.get?_put, before]
  · exact .error _

/-- Another chain tracks a nonce. -/
theorem setTheirNonce
    {row : NonceTrackerRow}
    (alike : borders.Alike store other)
    (untracked :
      ∀ footprint ∈ borders.own, row.sender ∉ footprint.senders)
    (set : store.setNonce row = .ok next) :
    borders.Alike next other := by
  obtain ⟨-, rfl⟩ := Store.setNonce_ok set
  refine { alike with nonces := ?_ }
  intro footprint isOwn sender member
  have differs : row.sender ≠ sender := fun same =>
    untracked footprint isOwn (same ▸ member)
  rw [← alike.nonces footprint isOwn sender member, Store.getNonce,
    Store.getNonce, Table.get?_put, if_neg differs]

/-- The chain takes the next sequence number of a tag. -/
theorem nextIngestSeq
    {tag : Bytes32}
    {footprint : Footprint}
    (alike : borders.Alike store other)
    (isOwn : footprint ∈ borders.own)
    (queued : tag ∈ footprint.queues) :
    borders.AlikeWith (store.nextIngestSeq tag)
      (other.nextIngestSeq tag) := by
  have sameSeq := alike.seqs footprint isOwn tag queued
  refine ⟨{ alike with seqs := ?_ }, ?_⟩
  · intro print isPrint counted member
    simp only [Store.nextIngestSeq, Table.get?_put, sameSeq,
      alike.seqs print isPrint counted member]
  · simp only [Store.nextIngestSeq, sameSeq]

/-- Another chain takes the next sequence number of a tag. -/
theorem nextTheirIngestSeq
    {tag : Bytes32}
    {footprint : Footprint}
    (alike : borders.Alike store other)
    (isTheirs : footprint ∈ borders.theirs)
    (queued : tag ∈ footprint.queues) :
    borders.Alike (store.nextIngestSeq tag).1 other := by
  refine { alike with seqs := ?_ }
  intro own isOwn counted member
  have differs : tag ≠ counted := fun same =>
    ((borders.clear footprint isTheirs own isOwn).queues tag queued).1
      (same ▸ member)
  rw [← alike.seqs own isOwn counted member]
  simp only [Store.nextIngestSeq, Table.get?_put]
  exact if_neg differs

/-- The chain observes a message row. -/
theorem upsertObserved
    {row : MessageRow}
    (alike : borders.Alike store other)
    (isOwn : row.ofChain borders.chain = true)
    (traced : row.Traced borders.own) :
    Purge.Alike borders.Alike (store.upsertObserved row)
      (other.upsertObserved row) := by
  obtain ⟨footprint, isPrint, slot⟩ := traced.slot
  unfold Store.upsertObserved
  rw [alike.message?_eq isPrint slot]
  split
  · cases other.message? row.key with
    | none =>
        exact .ok (alike.putMessage isOwn traced)
    | some existing =>
        dsimp only
        split
        · exact .error _
        split
        · exact .ok alike
        · exact .ok (alike.putMessage isOwn traced)
  · exact .error _

/-- Another chain observes a message row. -/
theorem upsertTheirObserved
    {row : MessageRow}
    (alike : borders.Alike store other)
    (isTheirs : row.ofChain borders.chain = false)
    (traced : row.Traced borders.theirs)
    (observed : store.upsertObserved row = .ok next) :
    borders.Alike next other := by
  rcases (Store.upsertObserved_ok observed).2 with
    ⟨rfl, -⟩ | ⟨rfl, -⟩
  · exact alike
  · exact alike.putTheirMessage isTheirs traced

/-- The chain marks a transaction. -/
theorem markReorged
    (alike : borders.Alike store other)
    (txHash : Bytes32)
    (invalidatedAt : Int) :
    Purge.Alike borders.Alike
      (store.markReorged borders.chain txHash invalidatedAt)
      (other.markReorged borders.chain txHash invalidatedAt) := by
  have found
      (holder : Store) :
      holder.batches.rows.any (BatchRow.isOf borders.chain txHash) =
        (holder.batches.select
          (BatchRow.ofChain borders.chain)).any
            (BatchRow.isOf borders.chain txHash) := by
    rw [Table.select, List.any_filter]
    congr 1
    funext row
    simp [BatchRow.isOf, BatchRow.ofChain]
  have sameFound :
      store.batches.rows.any (BatchRow.isOf borders.chain txHash) =
        other.batches.rows.any
          (BatchRow.isOf borders.chain txHash) := by
    rw [found store, found other, alike.batches]
  cases marked :
      store.markReorged borders.chain txHash invalidatedAt with
  | error error =>
      unfold Store.markReorged at marked ⊢
      rw [sameFound] at marked
      split at marked
      · cases marked
      · rename_i missing
        cases marked
        rw [if_neg missing]
        exact .error _
  | ok next =>
      cases otherMarked :
          other.markReorged borders.chain txHash invalidatedAt with
      | error error =>
          unfold Store.markReorged at marked otherMarked
          rw [sameFound] at marked
          split at otherMarked
          · cases otherMarked
          · rename_i missing
            rw [if_neg missing] at marked
            cases marked
      | ok otherNext =>
          have bordered := bordered_markReorged alike.bordered marked
          have otherBordered :=
            bordered_markReorged alike.otherBordered otherMarked
          unfold Store.markReorged at marked otherMarked
          split at marked
          case isFalse => cases marked
          split at otherMarked
          case isFalse => cases otherMarked
          cases marked
          cases otherMarked
          refine .ok {
            bordered := bordered
            otherBordered := otherBordered
            messages := ?_
            batches := ?_
            nonces := alike.nonces
            seqs := alike.seqs }
          · have keeps (row : MessageRow) :
                row.markedReorged.ofChain borders.chain =
                  row.ofChain borders.chain :=
              rfl
            dsimp only
            rw [Table.select_update _ MessageRow.key_markedReorged keeps,
              Table.select_update _ MessageRow.key_markedReorged keeps,
              alike.messages]
          · have keeps (row : BatchRow) :
                (row.markedReorged invalidatedAt).ofChain
                    borders.chain =
                  row.ofChain borders.chain :=
              rfl
            dsimp only
            rw [Table.select_update _
                (BatchRow.key_markedReorged invalidatedAt) keeps,
              Table.select_update _
                (BatchRow.key_markedReorged invalidatedAt) keeps,
              alike.batches]

/-- Another chain marks a transaction. -/
theorem markTheirReorged
    {chainId : Nat}
    {txHash : Bytes32}
    {invalidatedAt : Int}
    (alike : borders.Alike store other)
    (isTheirs : chainId ≠ borders.chain)
    (marked :
      store.markReorged chainId txHash invalidatedAt = .ok next) :
    borders.Alike next other := by
  have bordered := bordered_markReorged alike.bordered marked
  unfold Store.markReorged at marked
  split at marked
  case isFalse => cases marked
  cases marked
  refine { alike with
    bordered := bordered
    messages := ?_
    batches := ?_ }
  · rw [← alike.messages]
    apply Table.select_update_of_outside MessageRow.key_markedReorged
    case keeps =>
      intro row
      rfl
    case outside =>
      intro row marked
      have ofTheirs := (MessageRow.isConfirmedIn_iff.mp marked).2.1
      simp [MessageRow.ofChain, ofTheirs, isTheirs]
  · rw [← alike.batches]
    apply Table.select_update_of_outside
      (BatchRow.key_markedReorged invalidatedAt)
    case keeps =>
      intro row
      rfl
    case outside =>
      intro row marked
      have ofTheirs := (BatchRow.isOf_iff.mp marked).1
      simp [BatchRow.ofChain, ofTheirs, isTheirs]

/-- The chain updates the status of a batch. -/
theorem updateBatchStatus
    (alike : borders.Alike store other)
    (txHash contentTag : Bytes32)
    (status : BatchStatus)
    (opts : BatchStatusPatch) :
    Purge.Alike borders.Alike
      (store.updateBatchStatus borders.chain txHash contentTag status
        opts)
      (other.updateBatchStatus borders.chain txHash contentTag status
        opts) := by
  have sameRow :
      store.batch? (borders.chain, txHash, contentTag) =
        other.batch? (borders.chain, txHash, contentTag) :=
    alike.batch?_eq rfl
  unfold Store.updateBatchStatus
  rw [sameRow]
  cases found : other.batch? (borders.chain, txHash, contentTag) with
  | none =>
      exact .error _
  | some batch =>
      have ofChain : batch.chainId = borders.chain :=
        congrArg Prod.fst (Store.key_of_batch? found)
      exact .ok (alike.putBatch ofChain)

/-- Another chain updates the status of a batch. -/
theorem updateTheirBatchStatus
    {chainId : Nat}
    {txHash contentTag : Bytes32}
    {status : BatchStatus}
    {opts : BatchStatusPatch}
    (alike : borders.Alike store other)
    (isTheirs : chainId ≠ borders.chain)
    (updated :
      store.updateBatchStatus chainId txHash contentTag status opts =
        .ok next) :
    borders.Alike next other := by
  obtain ⟨batch, found, rfl⟩ := Store.updateBatchStatus_ok updated
  have ofChain : batch.chainId = chainId :=
    congrArg Prod.fst (Store.key_of_batch? found)
  exact alike.putTheirBatch (ofChain ▸ isTheirs)

/-- The chain deletes its rows. -/
theorem deleteRows
    (alike : borders.Alike store other) :
    borders.Alike
      ((store.deleteMessages borders.chain).deleteBatches borders.chain)
      ((other.deleteMessages borders.chain).deleteBatches
        borders.chain) where
  bordered := fun row member =>
    alike.bordered row (List.mem_filter.mp member).1
  otherBordered := fun row member =>
    alike.otherBordered row (List.mem_filter.mp member).1
  messages := by
    simp only [Store.deleteMessages, Store.deleteBatches,
      Table.select_deleteWhere, alike.messages]
  batches := by
    simp only [Store.deleteMessages, Store.deleteBatches,
      Table.select_deleteWhere, alike.batches]
  nonces := alike.nonces
  seqs := alike.seqs

/-- Another chain deletes its rows. -/
theorem deleteTheirRows
    {chainId : Nat}
    (alike : borders.Alike store other)
    (isTheirs : chainId ≠ borders.chain) :
    borders.Alike
      ((store.deleteMessages chainId).deleteBatches chainId) other where
  bordered := fun row member =>
    alike.bordered row (List.mem_filter.mp member).1
  otherBordered := alike.otherBordered
  messages := by
    rw [← alike.messages]
    apply Table.select_deleteWhere_of_outside
    intro row deleted
    have ofTheirs : row.chainId = some chainId :=
      of_decide_eq_true deleted
    simp [MessageRow.ofChain, ofTheirs, isTheirs]
  batches := by
    rw [← alike.batches]
    apply Table.select_deleteWhere_of_outside
    intro row deleted
    have ofTheirs : row.chainId = chainId := of_decide_eq_true deleted
    simp [BatchRow.ofChain, ofTheirs, isTheirs]
  nonces := alike.nonces
  seqs := alike.seqs

end Alike

end Writes

section Operations

variable {borders : Borders}
variable {store other next : Store}
variable {footprint : Footprint}

/-- A confirmed row of a slot and a transaction of a footprint is traced. -/
theorem traced_of_confirmed
    {footprints : List Footprint}
    {row : MessageRow}
    {txHash : Bytes32}
    (isPrint : footprint ∈ footprints)
    (slot : row.key ∈ footprint.slots)
    (confirmed : row.status = .confirmed)
    (attached : row.batchRef = some txHash)
    (place : (txHash, row.contentTag) ∈ footprint.attaches) :
    row.Traced footprints where
  slot := ⟨footprint, isPrint, slot⟩
  attached := by
    intro other isOther
    rw [attached, Option.some.injEq] at isOther
    exact ⟨footprint, isPrint, isOther ▸ place⟩
  queued := by
    intro pending
    rw [confirmed] at pending
    cases pending

/-- A pending row of a slot and a tag of a footprint is traced. -/
theorem traced_of_pending
    {footprints : List Footprint}
    {slotted : Footprint}
    {row : MessageRow}
    (isSlotted : slotted ∈ footprints)
    (slot : row.key ∈ slotted.slots)
    (detached : row.batchRef = none)
    (isPrint : footprint ∈ footprints)
    (queued : row.contentTag ∈ footprint.queues) :
    row.Traced footprints where
  slot := ⟨slotted, isSlotted, slot⟩
  attached := by
    intro txHash attached
    rw [detached] at attached
    cases attached
  queued := fun _ => ⟨footprint, isPrint, queued⟩

namespace Alike

/-- The chain checks a nonce. -/
theorem checkMonotonicity
    {sender : Address}
    (alike : borders.Alike store other)
    (isOwn : footprint ∈ borders.own)
    (tracked : sender ∈ footprint.senders)
    (nonce : Nat)
    (messageHash : Bytes32) :
    Purge.Alike borders.AlikeWith
      (Bam.checkMonotonicity store sender nonce messageHash)
      (Bam.checkMonotonicity other sender nonce messageHash) := by
  unfold Bam.checkMonotonicity
  rw [alike.nonces footprint isOwn sender tracked,
    alike.getMaxNonReorgedNonce_eq isOwn tracked]
  cases other.getNonce sender with
  | some row =>
      exact .ok ⟨alike, rfl⟩
  | none =>
      cases other.getMaxNonReorgedNonce sender with
      | none =>
          exact .ok ⟨alike, rfl⟩
      | some seed =>
          have seeded := alike.setNonce seed
          dsimp only
          generalize store.setNonce seed = first at seeded ⊢
          generalize other.setNonce seed = second at seeded ⊢
          cases seeded with
          | error error =>
              exact .error _
          | ok seededAlike =>
              exact .ok ⟨seededAlike, rfl⟩

/-- Another chain checks a nonce. -/
theorem checkTheirMonotonicity
    {sender : Address}
    {nonce : Nat}
    {messageHash : Bytes32}
    {outcome : MonotonicityOutcome}
    (alike : borders.Alike store other)
    (untracked :
      ∀ footprint ∈ borders.own, sender ∉ footprint.senders)
    (checked :
      Bam.checkMonotonicity store sender nonce messageHash =
        .ok (next, outcome)) :
    borders.Alike next other := by
  unfold Bam.checkMonotonicity at checked
  split at checked
  · cases checked
    exact alike
  · split at checked
    · cases checked
      exact alike
    · rename_i seed isSeed
      split at checked
      · cases checked
      · rename_i seeded set
        cases checked
        apply alike.setTheirNonce _ set
        rwa [(Store.getMaxNonReorgedNonce_some isSeed).1]

/-- The chain inserts a pending row. -/
theorem insertPending
    {row : StoreTxnPendingRow}
    (alike : borders.Alike store other)
    (isOwn : row.toMessageRow.ofChain borders.chain = true)
    (traced : row.toMessageRow.Traced borders.own) :
    Purge.Alike borders.Alike (store.insertPending row)
      (other.insertPending row) := by
  obtain ⟨print, isPrint, slot⟩ := traced.slot
  have sameRow :
      store.message? (row.sender, row.nonce) =
        other.message? (row.sender, row.nonce) :=
    alike.message?_eq isPrint slot
  unfold Store.insertPending
  rw [sameRow]
  split
  · cases other.message? (row.sender, row.nonce) with
    | none =>
        exact .ok (alike.putMessage isOwn traced)
    | some existing =>
        dsimp only
        split
        · exact .ok (alike.putMessage isOwn traced)
        · exact .error _
  · exact .error _

/-- The pending row of an ingested message is traced. -/
theorem traced_pendingRowOf
    {footprints : List Footprint}
    {opts : IngestPipelineOptions}
    {decoded : DecodedMessage}
    (isPrint : Footprint.ofIngest decoded ∈ footprints)
    (now : Int)
    (seq : Nat) :
    (pendingRowOf opts decoded now seq).toMessageRow.Traced
      footprints :=
  traced_of_pending isPrint List.mem_cons_self rfl isPrint
    List.mem_cons_self

/-- The chain runs an ingest transaction. -/
theorem ingestTxn
    {opts : IngestPipelineOptions}
    {decoded : DecodedMessage}
    (alike : borders.Alike store other)
    (ofChain : opts.chainId = borders.chain)
    (isOwn : Footprint.ofIngest decoded ∈ borders.own)
    (now : Int) :
    Purge.Alike borders.AlikeWith (Bam.ingestTxn opts store decoded now)
      (Bam.ingestTxn opts other decoded now) := by
  have tracked :
      decoded.sender ∈ (Footprint.ofIngest decoded).senders :=
    List.mem_cons_self
  have queued :
      decoded.contentTag ∈ (Footprint.ofIngest decoded).queues :=
    List.mem_cons_self
  have checked :=
    alike.checkMonotonicity isOwn tracked decoded.nonce
      decoded.messageHash
  unfold Bam.ingestTxn
  generalize Bam.checkMonotonicity store decoded.sender decoded.nonce
    decoded.messageHash = first at checked ⊢
  generalize Bam.checkMonotonicity other decoded.sender decoded.nonce
    decoded.messageHash = second at checked ⊢
  cases checked with
  | error error =>
      exact .error _
  | @ok left right same =>
      obtain ⟨seeded, outcome⟩ := left
      obtain ⟨otherSeeded, otherOutcome⟩ := right
      obtain ⟨seededAlike, rfl⟩ := same
      cases outcome with
      | reject reason =>
          exact .ok ⟨seededAlike, rfl⟩
      | no_op existing =>
          exact .ok ⟨seededAlike, rfl⟩
      | accept =>
          dsimp only
          cases opts.validate decoded with
          | error reason =>
              exact .ok ⟨seededAlike, rfl⟩
          | ok _ =>
              dsimp only
              have trackedAlike :=
                seededAlike.setNonce
                  ⟨decoded.sender, decoded.nonce, decoded.messageHash⟩
              generalize seeded.setNonce
                ⟨decoded.sender, decoded.nonce,
                  decoded.messageHash⟩ = first at trackedAlike ⊢
              generalize otherSeeded.setNonce
                ⟨decoded.sender, decoded.nonce,
                  decoded.messageHash⟩ = second at trackedAlike ⊢
              cases trackedAlike with
              | error error =>
                  exact .error _
              | @ok trackedStore otherTracked same =>
                  obtain ⟨sequenced, sameSeq⟩ :=
                    same.nextIngestSeq isOwn queued
                  dsimp only
                  rw [sameSeq]
                  have inserted :=
                    sequenced.insertPending
                      (decide_eq_true (congrArg some ofChain))
                      (@traced_pendingRowOf _ opts _ isOwn now
                        (otherTracked.nextIngestSeq
                          decoded.contentTag).2)
                  generalize Store.insertPending
                    (trackedStore.nextIngestSeq decoded.contentTag).1
                    _ = first at inserted ⊢
                  generalize Store.insertPending
                    (otherTracked.nextIngestSeq decoded.contentTag).1
                    _ = second at inserted ⊢
                  cases inserted with
                  | error error =>
                      exact .error _
                  | ok insertedAlike =>
                      exact .ok ⟨insertedAlike, rfl⟩

/-- Another chain runs an ingest transaction. -/
theorem ingestTheirTxn
    {opts : IngestPipelineOptions}
    {decoded : DecodedMessage}
    {now : Int}
    {result : SubmitResult}
    (alike : borders.Alike store other)
    (isTheirs : opts.chainId ≠ borders.chain)
    (isPrint : Footprint.ofIngest decoded ∈ borders.theirs)
    (committed :
      Bam.ingestTxn opts store decoded now = .ok (next, result)) :
    borders.Alike next other := by
  have untracked :
      ∀ footprint ∈ borders.own,
        decoded.sender ∉ footprint.senders :=
    fun own isOwn =>
      (borders.clear _ isPrint own isOwn).senders decoded.key
        List.mem_cons_self
  have queued :
      decoded.contentTag ∈ (Footprint.ofIngest decoded).queues :=
    List.mem_cons_self
  unfold Bam.ingestTxn at committed
  split at committed
  · cases committed
  · rename_i seeded reason checked
    cases committed
    exact alike.checkTheirMonotonicity untracked checked
  · rename_i seeded existing checked
    cases committed
    exact alike.checkTheirMonotonicity untracked checked
  · rename_i seeded checked
    have seededAlike := alike.checkTheirMonotonicity untracked checked
    split at committed
    · cases committed
      exact seededAlike
    split at committed
    · cases committed
    rename_i tracked set
    have trackedAlike := seededAlike.setTheirNonce untracked set
    have sequenced := trackedAlike.nextTheirIngestSeq isPrint queued
    dsimp only at committed
    split at committed
    · cases committed
    rename_i inserted isInserted
    cases committed
    obtain ⟨-, rfl, -⟩ := Store.insertPending_ok isInserted
    apply sequenced.putTheirMessage
    · exact decide_eq_false fun same =>
        isTheirs (Option.some.inj same)
    · exact traced_pendingRowOf isPrint now _

/-- The chain confirms the messages of an included entry. -/
theorem confirmMessages
    {opts : AggregatorLoopOptions}
    {outcome : PackedSubmitIncluded}
    {contentTag : Bytes32}
    {messages : List DecodedMessage}
    (alike : borders.Alike store other)
    (keccak256 : Bytes → Bytes32)
    (index : Nat)
    (ofChain : opts.chainId = borders.chain)
    (isOwn : footprint ∈ borders.own)
    (slots : ∀ message ∈ messages, message.key ∈ footprint.slots)
    (place : (outcome.txHash, contentTag) ∈ footprint.attaches) :
    Purge.Alike borders.Alike
      (Bam.confirmMessages keccak256 opts outcome contentTag index
        messages store)
      (Bam.confirmMessages keccak256 opts outcome contentTag index
        messages other) := by
  induction messages generalizing index store other with
  | nil =>
      exact .ok alike
  | cons message rest inductionHypothesis =>
      rw [List.forall_mem_cons] at slots
      rw [Bam.confirmMessages, Bam.confirmMessages,
        alike.getBySenderNonce_eq isOwn slots.1]
      cases other.getBySenderNonce message.sender message.nonce with
      | error error =>
          exact .error _
      | ok found =>
          cases found with
          | none =>
              exact inductionHypothesis alike _ slots.2
          | some row =>
              dsimp only
              cases computeMessageId keccak256 message.sender contentTag
                  message.nonce outcome.blobVersionedHash with
              | none =>
                  exact .error _
              | some messageId =>
                  dsimp only
                  have observed :=
                    alike.upsertObserved
                      (decide_eq_true (congrArg some ofChain))
                      (@traced_of_confirmed _ _
                        (confirmedMessage opts outcome contentTag index
                          message messageId row)
                        _ isOwn slots.1 rfl rfl place)
                  generalize store.upsertObserved _ = first
                    at observed ⊢
                  generalize other.upsertObserved _ = second
                    at observed ⊢
                  cases observed with
                  | error error =>
                      exact .error _
                  | ok observedAlike =>
                      exact inductionHypothesis observedAlike _ slots.2

/-- Another chain confirms the messages of an included entry. -/
theorem confirmTheirMessages
    {keccak256 : Bytes → Bytes32}
    {opts : AggregatorLoopOptions}
    {outcome : PackedSubmitIncluded}
    {contentTag : Bytes32}
    {index : Nat}
    {messages : List DecodedMessage}
    (alike : borders.Alike store other)
    (isTheirs : opts.chainId ≠ borders.chain)
    (isPrint : footprint ∈ borders.theirs)
    (slots : ∀ message ∈ messages, message.key ∈ footprint.slots)
    (place : (outcome.txHash, contentTag) ∈ footprint.attaches)
    (confirmed :
      Bam.confirmMessages keccak256 opts outcome contentTag index
        messages store = .ok next) :
    borders.Alike next other := by
  induction messages generalizing index store with
  | nil =>
      cases confirmed
      exact alike
  | cons message rest inductionHypothesis =>
      rw [List.forall_mem_cons] at slots
      obtain ⟨middle, later, step⟩ := confirmMessages_cons confirmed
      rcases step with ⟨rfl, -⟩ | ⟨row, messageId, -, observed⟩
      · exact inductionHypothesis alike slots.2 later
      · have observedAlike :=
          alike.upsertTheirObserved
            (decide_eq_false fun same =>
              isTheirs (Option.some.inj same))
            (@traced_of_confirmed _ _
              (confirmedMessage opts outcome contentTag index message
                messageId row)
              _ isPrint slots.1 rfl rfl place)
            observed
        exact inductionHypothesis observedAlike slots.2 later

/-- The chain links reorged batches to their replacement. -/
theorem chainReplaced
    {batches : List BatchRow}
    (alike : borders.Alike store other)
    (txHash : Bytes32)
    (includedHashes : List Bytes32)
    (ofChain : ∀ batch ∈ batches, batch.chainId = borders.chain) :
    Purge.Alike borders.Alike
      (Bam.chainReplaced txHash includedHashes batches store)
      (Bam.chainReplaced txHash includedHashes batches other) := by
  induction batches generalizing store other with
  | nil =>
      exact .ok alike
  | cons batch rest inductionHypothesis =>
      rw [List.forall_mem_cons] at ofChain
      rw [Bam.chainReplaced, Bam.chainReplaced]
      split
      · exact inductionHypothesis alike ofChain.2
      split
      · have updated :=
          alike.updateBatchStatus batch.txHash batch.contentTag
            .reorged { replacedByTxHash := some txHash }
        rw [ofChain.1]
        generalize store.updateBatchStatus _ _ _ _ _ = first
          at updated ⊢
        generalize other.updateBatchStatus _ _ _ _ _ = second
          at updated ⊢
        cases updated with
        | error error =>
            exact .error _
        | ok updatedAlike =>
            exact inductionHypothesis updatedAlike ofChain.2
      · exact inductionHypothesis alike ofChain.2

/-- Another chain links reorged batches to their replacement. -/
theorem chainTheirReplaced
    {txHash : Bytes32}
    {includedHashes : List Bytes32}
    {batches : List BatchRow}
    (alike : borders.Alike store other)
    (isTheirs : ∀ batch ∈ batches, batch.chainId ≠ borders.chain)
    (chained :
      Bam.chainReplaced txHash includedHashes batches store =
        .ok next) :
    borders.Alike next other := by
  induction batches generalizing store with
  | nil =>
      cases chained
      exact alike
  | cons batch rest inductionHypothesis =>
      rw [List.forall_mem_cons] at isTheirs
      rw [Bam.chainReplaced] at chained
      split at chained
      · exact inductionHypothesis alike isTheirs.2 chained
      split at chained
      · split at chained
        · cases chained
        · rename_i updated isUpdated
          exact inductionHypothesis
            (alike.updateTheirBatchStatus isTheirs.1 isUpdated)
            isTheirs.2 chained
      · exact inductionHypothesis alike isTheirs.2 chained

/-- The chain confirms an included entry. -/
theorem confirmEntry
    {opts : AggregatorLoopOptions}
    {outcome : PackedSubmitIncluded}
    {entry : PackedSubmitIncludedEntry}
    (alike : borders.Alike store other)
    (keccak256 : Bytes → Bytes32)
    (submittedAt : Int)
    (ofChain : opts.chainId = borders.chain)
    (isOwn : footprint ∈ borders.own)
    (slots : ∀ message ∈ entry.messages, message.key ∈ footprint.slots)
    (place : (outcome.txHash, entry.contentTag) ∈ footprint.attaches) :
    Purge.Alike borders.Alike
      (Bam.confirmEntry keccak256 opts outcome submittedAt entry store)
      (Bam.confirmEntry keccak256 opts outcome submittedAt entry
        other) := by
  unfold Bam.confirmEntry
  cases entrySnapshot keccak256 entry.contentTag
      outcome.blobVersionedHash 0 entry.messages with
  | error error =>
      exact .error _
  | ok snapshot =>
      dsimp only
      have upserted :=
        alike.upsertBatch
          (confirmedBatch opts outcome submittedAt entry.contentTag
            snapshot) ofChain
      have confirmed :=
        upserted.confirmMessages keccak256 0 ofChain isOwn slots place
      generalize Bam.confirmMessages keccak256 opts outcome
        entry.contentTag 0 entry.messages (store.upsertBatch _) = first
        at confirmed ⊢
      generalize Bam.confirmMessages keccak256 opts outcome
        entry.contentTag 0 entry.messages (other.upsertBatch _) = second
        at confirmed ⊢
      cases confirmed with
      | error error =>
          exact .error _
      | @ok observed otherObserved observedAlike =>
          dsimp only
          have listed :
              observed.listBatches
                  (replaceableQuery opts outcome entry.contentTag) =
                otherObserved.listBatches
                  (replaceableQuery opts outcome entry.contentTag) :=
            observedAlike.listBatches_eq (congrArg some ofChain)
          have ofListed :
              ∀ batch ∈ otherObserved.listBatches
                (replaceableQuery opts outcome entry.contentTag),
                batch.chainId = borders.chain := by
            intro batch member
            have admitted := (Store.mem_listBatches.mp member).2
            simp only [BatchesQuery.admits, replaceableQuery,
              Option.all_some, Bool.and_eq_true,
              decide_eq_true_eq] at admitted
            exact admitted.1.1.2.trans ofChain
          rw [listed]
          have chained :=
            observedAlike.chainReplaced outcome.txHash
              (snapshot.map BatchMessageSnapshotEntry.messageHash)
              ofListed
          generalize Bam.chainReplaced _ _ _ observed = first
            at chained ⊢
          generalize Bam.chainReplaced _ _ _ otherObserved = second
            at chained ⊢
          cases chained with
          | error error =>
              exact .error _
          | ok chainedAlike =>
              exact .ok chainedAlike

/-- Another chain confirms an included entry. -/
theorem confirmTheirEntry
    {keccak256 : Bytes → Bytes32}
    {opts : AggregatorLoopOptions}
    {outcome : PackedSubmitIncluded}
    {submittedAt : Int}
    {entry : PackedSubmitIncludedEntry}
    (alike : borders.Alike store other)
    (isTheirs : opts.chainId ≠ borders.chain)
    (isPrint : footprint ∈ borders.theirs)
    (slots : ∀ message ∈ entry.messages, message.key ∈ footprint.slots)
    (place : (outcome.txHash, entry.contentTag) ∈ footprint.attaches)
    (confirmed :
      Bam.confirmEntry keccak256 opts outcome submittedAt entry store =
        .ok next) :
    borders.Alike next other := by
  unfold Bam.confirmEntry at confirmed
  split at confirmed
  · cases confirmed
  rename_i snapshot snapshotted
  split at confirmed
  · cases confirmed
  rename_i observed isObserved
  split at confirmed
  · cases confirmed
  rename_i chained isChained
  cases confirmed
  have upserted :=
    alike.upsertTheirBatch
      (confirmedBatch opts outcome submittedAt entry.contentTag
        snapshot) isTheirs
  have observedAlike :=
    upserted.confirmTheirMessages isTheirs isPrint slots place
      isObserved
  apply observedAlike.chainTheirReplaced _ isChained
  intro batch member
  have admitted := (Store.mem_listBatches.mp member).2
  simp only [BatchesQuery.admits, replaceableQuery, Option.all_some,
    Bool.and_eq_true, decide_eq_true_eq] at admitted
  exact admitted.1.1.2 ▸ isTheirs

/-- The entries of an outcome lie within its footprint. -/
theorem slots_ofConfirm
    {outcome : PackedSubmitIncluded}
    {entry : PackedSubmitIncludedEntry}
    (member : entry ∈ outcome.entries) :
    (∀ message ∈ entry.messages,
        message.key ∈ (Footprint.ofConfirm outcome).slots) ∧
      (outcome.txHash, entry.contentTag) ∈
        (Footprint.ofConfirm outcome).attaches :=
  ⟨fun _ isMessage =>
      List.mem_flatMap.mpr
        ⟨entry, member, List.mem_map_of_mem isMessage⟩,
    List.mem_map.mpr ⟨entry, member, rfl⟩⟩

/-- The chain confirms a submission. -/
theorem confirmIncluded
    {opts : AggregatorLoopOptions}
    {outcome : PackedSubmitIncluded}
    (alike : borders.Alike store other)
    (keccak256 : Bytes → Bytes32)
    (ofChain : opts.chainId = borders.chain)
    (isOwn : Footprint.ofConfirm outcome ∈ borders.own)
    (submittedAt : Int) :
    Purge.Alike borders.Alike
      (Bam.confirmIncluded keccak256 opts store outcome submittedAt)
      (Bam.confirmIncluded keccak256 opts other outcome
        submittedAt) := by
  have within
      (entries : List PackedSubmitIncludedEntry)
      (members : ∀ entry ∈ entries, entry ∈ outcome.entries)
      {store other : Store}
      (alike : borders.Alike store other) :
      Purge.Alike borders.Alike
        (confirmEntries keccak256 opts outcome submittedAt entries
          store)
        (confirmEntries keccak256 opts outcome submittedAt entries
          other) := by
    induction entries generalizing store other with
    | nil =>
        exact .ok alike
    | cons entry rest inductionHypothesis =>
        rw [List.forall_mem_cons] at members
        obtain ⟨slots, place⟩ := slots_ofConfirm members.1
        have confirmed :=
          alike.confirmEntry keccak256 submittedAt ofChain isOwn slots
            place
        rw [confirmEntries, confirmEntries]
        generalize Bam.confirmEntry keccak256 opts outcome submittedAt
          entry store = first at confirmed ⊢
        generalize Bam.confirmEntry keccak256 opts outcome submittedAt
          entry other = second at confirmed ⊢
        cases confirmed with
        | error error =>
            exact .error _
        | ok confirmedAlike =>
            exact inductionHypothesis members.2 confirmedAlike
  exact within outcome.entries (fun _ member => member) alike

/-- Another chain confirms a submission. -/
theorem confirmTheirIncluded
    {keccak256 : Bytes → Bytes32}
    {opts : AggregatorLoopOptions}
    {outcome : PackedSubmitIncluded}
    {submittedAt : Int}
    (alike : borders.Alike store other)
    (isTheirs : opts.chainId ≠ borders.chain)
    (isPrint : Footprint.ofConfirm outcome ∈ borders.theirs)
    (confirmed :
      Bam.confirmIncluded keccak256 opts store outcome submittedAt =
        .ok next) :
    borders.Alike next other := by
  have within
      (entries : List PackedSubmitIncludedEntry)
      (members : ∀ entry ∈ entries, entry ∈ outcome.entries)
      {store : Store}
      (alike : borders.Alike store other)
      (confirmed :
        confirmEntries keccak256 opts outcome submittedAt entries
          store = .ok next) :
      borders.Alike next other := by
    induction entries generalizing store with
    | nil =>
        cases confirmed
        exact alike
    | cons entry rest inductionHypothesis =>
        rw [List.forall_mem_cons] at members
        obtain ⟨slots, place⟩ := slots_ofConfirm members.1
        rw [confirmEntries] at confirmed
        split at confirmed
        · cases confirmed
        rename_i middle isMiddle
        exact inductionHypothesis members.2
          (alike.confirmTheirEntry isTheirs isPrint slots place
            isMiddle)
          confirmed
  exact within outcome.entries (fun _ member => member) alike confirmed

/-- The row of a verified message is traced. -/
theorem traced_toMessageRow
    {footprints : List Footprint}
    {libraries : ReaderLibraries}
    {opts : ProcessBatchOptions}
    {verified : List VerifiedEntry}
    {entry : VerifiedEntry}
    {row : MessageRow}
    (isPrint : Footprint.ofSegment opts verified ∈ footprints)
    (member : entry ∈ verified)
    (isRow : entry.toMessageRow libraries opts = some row) :
    row.Traced footprints ∧ row.chainId = some opts.chainId := by
  obtain ⟨messageId, -, rfl⟩ := Option.map_eq_some_iff.mp isRow
  refine ⟨traced_of_confirmed isPrint ?_ rfl rfl List.mem_cons_self,
    rfl⟩
  exact List.mem_map.mpr ⟨entry, member, rfl⟩

/-- The chain writes verified messages. -/
theorem observeMessages
    {opts : ProcessBatchOptions}
    {verified : List VerifiedEntry}
    (alike : borders.Alike store other)
    (libraries : ReaderLibraries)
    (ofChain : opts.chainId = borders.chain)
    (isOwn : Footprint.ofSegment opts verified ∈ borders.own)
    (counters : ReaderCounters) :
    (Bam.observeMessages libraries opts verified store counters 0).1 =
        (Bam.observeMessages libraries opts verified other counters
          0).1 ∧
      Purge.Alike borders.AlikeWith
        (Bam.observeMessages libraries opts verified store counters 0).2
        (Bam.observeMessages libraries opts verified other counters
          0).2 := by
  have within
      (entries : List VerifiedEntry)
      (members : ∀ entry ∈ entries, entry ∈ verified)
      (counters : ReaderCounters)
      (written : Nat)
      {store other : Store}
      (alike : borders.Alike store other) :
      (Bam.observeMessages libraries opts entries store counters
            written).1 =
          (Bam.observeMessages libraries opts entries other counters
            written).1 ∧
        Purge.Alike borders.AlikeWith
          (Bam.observeMessages libraries opts entries store counters
            written).2
          (Bam.observeMessages libraries opts entries other counters
            written).2 := by
    induction entries generalizing counters written store other with
    | nil =>
        exact ⟨rfl, .ok ⟨alike, rfl⟩⟩
    | cons entry rest inductionHypothesis =>
        rw [List.forall_mem_cons] at members
        rw [Bam.observeMessages, Bam.observeMessages]
        cases isRow : entry.toMessageRow libraries opts with
        | none =>
            exact ⟨rfl, .error _⟩
        | some row =>
            obtain ⟨traced, rowChain⟩ :=
              traced_toMessageRow isOwn members.1 isRow
            have isOwnRow : row.ofChain borders.chain = true :=
              decide_eq_true (rowChain.trans (congrArg some ofChain))
            have observed := alike.upsertObserved isOwnRow traced
            dsimp only
            generalize store.upsertObserved row = first at observed ⊢
            generalize other.upsertObserved row = second at observed ⊢
            cases observed with
            | error error =>
                cases error with
                | messageHashConflict =>
                    exact inductionHypothesis members.2 _ _ alike
                | _ =>
                    exact ⟨rfl, .error _⟩
            | ok observedAlike =>
                exact inductionHypothesis members.2 _ _ observedAlike
  exact within verified (fun _ member => member) counters 0 alike

/-- The chain processes a decoded batch. -/
theorem processDecoded
    {libraries : ReaderLibraries}
    {opts : ProcessBatchOptions}
    {decoded : DecodedBatch}
    (alike : borders.Alike store other)
    (ofChain : opts.chainId = borders.chain)
    (isOwn :
      ∀ verified,
        (verifyMessages libraries opts 0
          (decoded.messages.zip decoded.signatures)
          emptyCounters).2 = .ok verified →
        Footprint.ofSegment opts verified ∈ borders.own) :
    (Bam.processDecoded libraries opts store emptyCounters decoded).1 =
        (Bam.processDecoded libraries opts other emptyCounters
          decoded).1 ∧
      Purge.Alike borders.AlikeWith
        (Bam.processDecoded libraries opts store emptyCounters
          decoded).2
        (Bam.processDecoded libraries opts other emptyCounters
          decoded).2 := by
  unfold Bam.processDecoded
  cases verification :
      verifyMessages libraries opts 0
        (decoded.messages.zip decoded.signatures) emptyCounters with
  | mk counted kept =>
  cases kept with
  | error error =>
      exact ⟨rfl, .error _⟩
  | ok verified =>
      have isPrint :=
        isOwn verified (congrArg Prod.snd verification)
      dsimp only
      cases verified.mapM
          (VerifiedEntry.toSnapshotEntry libraries opts) with
      | none =>
          exact ⟨rfl, .error _⟩
      | some snapshot =>
          dsimp only
          have upserted :=
            alike.upsertBatch
              { opts.baseBatch with messageSnapshot := snapshot } ofChain
          obtain ⟨sameCounters, observed⟩ :=
            upserted.observeMessages libraries ofChain isPrint counted
          generalize Bam.observeMessages libraries opts verified
            (store.upsertBatch _) counted 0 = first
            at sameCounters observed ⊢
          generalize Bam.observeMessages libraries opts verified
            (other.upsertBatch _) counted 0 = second
            at sameCounters observed ⊢
          obtain ⟨after, written⟩ := first
          obtain ⟨otherAfter, otherWritten⟩ := second
          cases sameCounters
          cases observed with
          | error error =>
              exact ⟨rfl, .error _⟩
          | @ok left right same =>
              obtain ⟨stored, total⟩ := left
              obtain ⟨otherStored, otherTotal⟩ := right
              obtain ⟨storedAlike, rfl⟩ := same
              exact ⟨rfl, .ok ⟨storedAlike, rfl⟩⟩

/-- The chain processes a batch. -/
theorem processBatch
    {libraries : ReaderLibraries}
    {opts : ProcessBatchOptions}
    (alike : borders.Alike store other)
    (ofChain : opts.chainId = borders.chain)
    (isOwn :
      ∀ verified,
        readSegment libraries opts = some verified →
        Footprint.ofSegment opts verified ∈ borders.own) :
    (Bam.processBatch libraries opts store emptyCounters).1 =
        (Bam.processBatch libraries opts other emptyCounters).1 ∧
      Purge.Alike borders.AlikeWith
        (Bam.processBatch libraries opts store emptyCounters).2
        (Bam.processBatch libraries opts other emptyCounters).2 := by
  have upserted := alike.upsertBatch opts.baseBatch ofChain
  unfold Bam.processBatch
  unfold readSegment at isOwn
  dsimp only at isOwn ⊢
  by_cases rejected :
      (validateSegmentRange (opts.event.startFE.getD 0)
        (opts.event.endFE.getD FIELD_ELEMENTS_PER_BLOB)).isSome = true
  · rw [if_pos rejected, if_pos rejected]
    exact ⟨rfl, .ok ⟨alike, rfl⟩⟩
  rw [if_neg rejected] at isOwn ⊢
  rw [if_neg rejected]
  cases fetched : opts.fetchBlob with
  | none =>
      exact ⟨rfl, .ok ⟨upserted, rfl⟩⟩
  | some blobBytes =>
      rw [fetched] at isOwn
      dsimp only at isOwn ⊢
      cases extracted :
          extractSegmentBytes blobBytes (opts.event.startFE.getD 0)
            (opts.event.endFE.getD FIELD_ELEMENTS_PER_BLOB) with
      | error error =>
          exact ⟨rfl, .error _⟩
      | ok usableBytes =>
          rw [extracted] at isOwn
          dsimp only at isOwn ⊢
          cases isDecoded :
              decode libraries.decompress opts.event.decoder usableBytes
                (opts.decodeAnswer usableBytes) with
          | error error =>
              exact ⟨rfl, .ok ⟨upserted, rfl⟩⟩
          | ok decoded =>
              rw [isDecoded] at isOwn
              apply alike.processDecoded ofChain
              intro verified kept
              apply isOwn
              dsimp only
              rw [kept]
              rfl

/-- Another chain processes a batch. -/
theorem processTheirBatch
    {libraries : ReaderLibraries}
    {opts : ProcessBatchOptions}
    {counters : ReaderCounters}
    {result : ProcessBatchResult}
    (alike : borders.Alike store other)
    (isTheirs : opts.chainId ≠ borders.chain)
    (isPrint :
      ∀ verified,
        readSegment libraries opts = some verified →
        Footprint.ofSegment opts verified ∈ borders.theirs)
    (processed :
      (Bam.processBatch libraries opts store counters).2 =
        .ok (next, result)) :
    borders.Alike next other := by
  have left := processBatch_store libraries opts store counters
  cases isRead : readSegment libraries opts with
  | none =>
      rw [isRead] at left
      exact left next result processed ▸ alike
  | some verified =>
      rw [isRead] at left
      obtain ⟨-, isResult, recorded⟩ := left
      rw [processed] at recorded
      cases recorded
      have traced :
          ∀ row ∈ opts.messageRows libraries verified,
            row.Traced borders.theirs ∧
              row.chainId = some opts.chainId := by
        intro row member
        obtain ⟨entry, isEntry, isRow⟩ := List.mem_filterMap.mp member
        exact traced_toMessageRow (isPrint verified isRead) isEntry
          isRow
      have observing
          (rows : List MessageRow)
          (traced :
            ∀ row ∈ rows,
              row.Traced borders.theirs ∧
                row.chainId = some opts.chainId)
          {store : Store}
          (alike : borders.Alike store other) :
          borders.Alike (rows.foldl Store.observe store) other := by
        induction rows generalizing store with
        | nil =>
            exact alike
        | cons row rest inductionHypothesis =>
            rw [List.forall_mem_cons] at traced
            apply inductionHypothesis traced.2
            unfold Store.observe
            split
            · rename_i observed isObserved
              apply alike.upsertTheirObserved _ traced.1.1 isObserved
              apply decide_eq_false
              rw [traced.1.2]
              exact fun same => isTheirs (Option.some.inj same)
            · exact alike
      exact observing _ traced (alike.upsertTheirBatch _ isTheirs)

/-- The chain re-enqueues messages of its own. -/
theorem requeueMessages
    {contentTag : Bytes32}
    {messages : List MessageRow}
    (alike : borders.Alike store other)
    (isOwn : footprint ∈ borders.own)
    (queued : contentTag ∈ footprint.queues)
    (traced : ∀ message ∈ messages, message.Traced borders.own)
    (ingestedAt : Int) :
    Purge.Alike borders.Alike
      (Bam.requeueMessages borders.chain contentTag ingestedAt messages
        store)
      (Bam.requeueMessages borders.chain contentTag ingestedAt messages
        other) := by
  induction messages generalizing store other with
  | nil =>
      exact .ok alike
  | cons message rest inductionHypothesis =>
      rw [List.forall_mem_cons] at traced
      obtain ⟨slotted, isSlotted, slot⟩ := traced.1.slot
      rw [Bam.requeueMessages, Bam.requeueMessages,
        alike.getBySenderNonce_eq isSlotted slot]
      cases other.getBySenderNonce message.sender message.nonce with
      | error error =>
          exact .error _
      | ok existing =>
          dsimp only
          split
          · exact inductionHypothesis alike traced.2
          · obtain ⟨sequenced, sameSeq⟩ :=
              alike.nextIngestSeq isOwn queued
            rw [sameSeq]
            have observed :=
              sequenced.upsertObserved
                (decide_eq_true rfl)
                (@traced_of_pending footprint _ slotted
                  (requeuedMessage borders.chain contentTag ingestedAt
                    message (other.nextIngestSeq contentTag).2)
                  isSlotted slot rfl isOwn queued)
            generalize Store.upsertObserved
              (store.nextIngestSeq contentTag).1 _ = first
              at observed ⊢
            generalize Store.upsertObserved
              (other.nextIngestSeq contentTag).1 _ = second
              at observed ⊢
            cases observed with
            | error error =>
                exact .error _
            | ok observedAlike =>
                exact inductionHypothesis observedAlike traced.2

/-- Another chain re-enqueues messages of its own. -/
theorem requeueTheirMessages
    {chainId : Nat}
    {contentTag : Bytes32}
    {ingestedAt : Int}
    {messages : List MessageRow}
    (alike : borders.Alike store other)
    (isTheirs : chainId ≠ borders.chain)
    (isPrint : footprint ∈ borders.theirs)
    (queued : contentTag ∈ footprint.queues)
    (traced : ∀ message ∈ messages, message.Traced borders.theirs)
    (requeued :
      Bam.requeueMessages chainId contentTag ingestedAt messages store =
        .ok next) :
    borders.Alike next other := by
  induction messages generalizing store with
  | nil =>
      cases requeued
      exact alike
  | cons message rest inductionHypothesis =>
      rw [List.forall_mem_cons] at traced
      obtain ⟨slotted, isSlotted, slot⟩ := traced.1.slot
      rw [Bam.requeueMessages] at requeued
      split at requeued
      · cases requeued
      split at requeued
      · exact inductionHypothesis alike traced.2 requeued
      · have sequenced := alike.nextTheirIngestSeq isPrint queued
        dsimp only at requeued
        split at requeued
        · cases requeued
        rename_i observed isObserved
        apply inductionHypothesis _ traced.2 requeued
        apply sequenced.upsertTheirObserved _ _ isObserved
        · exact decide_eq_false fun same =>
            isTheirs (Option.some.inj same)
        · exact traced_of_pending isSlotted slot rfl isPrint queued

/-- The chain drops a batch. -/
theorem reorgBatch
    {batch : BatchRow}
    (alike : borders.Alike store other)
    (isOwn : Footprint.ofReorg batch ∈ borders.own)
    (invalidatedAt ingestedAt : Int) :
    Purge.Alike borders.Alike
      (Bam.reorgBatch borders.chain store batch invalidatedAt
        ingestedAt)
      (Bam.reorgBatch borders.chain other batch invalidatedAt
        ingestedAt) := by
  have watched :
      (batch.txHash, batch.contentTag) ∈
        (Footprint.ofReorg batch).watches :=
    List.mem_cons_self
  have marked := alike.markReorged batch.txHash invalidatedAt
  unfold Bam.reorgBatch
  rw [alike.attachedMessages_eq isOwn watched]
  generalize store.markReorged borders.chain batch.txHash
    invalidatedAt = first at marked ⊢
  generalize other.markReorged borders.chain batch.txHash
    invalidatedAt = second at marked ⊢
  cases marked with
  | error error =>
      exact .error _
  | ok markedAlike =>
      apply markedAlike.requeueMessages isOwn List.mem_cons_self
      intro message member
      obtain ⟨isRow, attached, tagged⟩ :=
        Store.mem_attachedMessages.mp (Table.mem_orderBy.mp member)
      exact traced_own alike.otherBordered isRow
        (ofChain_of_watched alike.otherBordered isRow attached isOwn
          (tagged ▸ watched))

/-- Another chain drops a batch. -/
theorem reorgTheirBatch
    {chainId : Nat}
    {batch : BatchRow}
    {invalidatedAt ingestedAt : Int}
    (alike : borders.Alike store other)
    (isTheirs : chainId ≠ borders.chain)
    (isPrint : Footprint.ofReorg batch ∈ borders.theirs)
    (reorged :
      Bam.reorgBatch chainId store batch invalidatedAt ingestedAt =
        .ok next) :
    borders.Alike next other := by
  have watched :
      (batch.txHash, batch.contentTag) ∈
        (Footprint.ofReorg batch).watches :=
    List.mem_cons_self
  unfold Bam.reorgBatch at reorged
  dsimp only at reorged
  split at reorged
  · cases reorged
  rename_i marked isMarked
  apply (alike.markTheirReorged isTheirs isMarked).requeueTheirMessages
    isTheirs isPrint List.mem_cons_self _ reorged
  intro message member
  obtain ⟨isRow, attached, tagged⟩ :=
    Store.mem_attachedMessages.mp (Table.mem_orderBy.mp member)
  exact traced_theirs alike.bordered isRow
    (theirs_of_watched alike.bordered isRow attached isPrint
      (tagged ▸ watched))

/-- The chain reads its pools. -/
theorem snapshotPools_eq
    {tags : List Bytes32}
    (alike : borders.Alike store other)
    (isOwn : footprint ∈ borders.own)
    (pooled : ∀ tag ∈ tags, tag ∈ footprint.pools) :
    snapshotPools store tags = snapshotPools other tags := by
  induction tags with
  | nil =>
      rfl
  | cons tag rest inductionHypothesis =>
      rw [List.forall_mem_cons] at pooled
      have sameRows :
          store.listPendingByTag tag = other.listPendingByTag tag := by
        unfold Store.listPendingByTag
        rw [alike.pendingRows_eq isOwn pooled.1]
      rw [snapshotPools, snapshotPools, sameRows,
        inductionHypothesis pooled.2]

end Alike

end Operations

/-- Databases the chain cannot tell apart. -/
def AlikeDb
    (borders : Borders)
    (db other : SharedDb) : Prop :=
  borders.Alike db.store other.store ∧
    db.cursors.select (ReaderCursorRow.ofChain borders.chain) =
      other.cursors.select (ReaderCursorRow.ofChain borders.chain)

section Calls

variable {borders : Borders}
variable {config : SystemConfig}
variable {db other : SharedDb}

theorem commit_own
    {Error : Type}
    {first second : Except Error Store}
    (alike : borders.AlikeDb db other)
    (left : Purge.Alike borders.Alike first second) :
    borders.AlikeDb (db.commit first).1 (other.commit second).1 ∧
      (db.commit first).2 = (other.commit second).2 := by
  cases left with
  | error error =>
      exact ⟨alike, rfl⟩
  | ok storeAlike =>
      exact ⟨⟨storeAlike, alike.2⟩, rfl⟩

theorem commit_theirs
    {Error : Type}
    {transaction : Except Error Store}
    (alike : borders.AlikeDb db other)
    (left :
      ∀ next, transaction = .ok next →
        borders.Alike next other.store) :
    borders.AlikeDb (db.commit transaction).1 other := by
  cases transaction with
  | error error =>
      exact alike
  | ok next =>
      exact ⟨left next rfl, alike.2⟩

/-- A call of the chain answers alike and leaves the same rows. -/
theorem call_own
    (ofChain : config.chainId = borders.chain)
    (call : ChainCall)
    (isOwn : Footprint.of config call ∈ borders.own)
    (alike : borders.AlikeDb db other) :
    borders.AlikeDb (db.call config call).1 (other.call config call).1 ∧
      (db.call config call).2 = (other.call config call).2 := by
  obtain ⟨storeAlike, cursorsAlike⟩ := alike
  cases call with
  | ingest raw withinRateLimit now =>
      have ingested :=
        ingest_eq config.keccak256 config.ingest raw withinRateLimit
      simp only [Footprint.of] at isOwn
      cases admitted :
          admittedMessage config.keccak256 config.ingest raw
            withinRateLimit with
      | none =>
          rw [admitted] at ingested
          obtain ⟨reason, rejects⟩ := ingested
          simp only [SharedDb.call, rejects]
          exact ⟨⟨storeAlike, cursorsAlike⟩, trivial⟩
      | some decoded =>
          rw [admitted] at ingested isOwn
          have committed := storeAlike.ingestTxn ofChain isOwn now
          simp only [SharedDb.call, ingested]
          generalize Bam.ingestTxn config.ingest db.store decoded now =
            first at committed ⊢
          generalize Bam.ingestTxn config.ingest other.store decoded
            now = second at committed ⊢
          cases committed with
          | error error =>
              cases error with
              | _ =>
                  exact ⟨⟨storeAlike, cursorsAlike⟩, rfl⟩
          | @ok left right same =>
              obtain ⟨stored, result⟩ := left
              obtain ⟨otherStored, otherResult⟩ := right
              obtain ⟨storedAlike, rfl⟩ := same
              exact ⟨⟨storedAlike, cursorsAlike⟩, rfl⟩
  | snapshot =>
      have samePools :
          snapshotPools db.store config.aggregator.tags =
            snapshotPools other.store config.aggregator.tags :=
        storeAlike.snapshotPools_eq isOwn fun _ member => member
      simp only [SharedDb.call]
      exact ⟨⟨storeAlike, cursorsAlike⟩, by rw [samePools]⟩
  | confirm outcome submittedAt =>
      have confirming : config.loop.chainId = borders.chain := ofChain
      obtain ⟨next, sameAnswer⟩ :=
        commit_own ⟨storeAlike, cursorsAlike⟩
          (storeAlike.confirmIncluded config.keccak256 confirming isOwn
            submittedAt)
      exact ⟨next, congrArg ChainAnswer.confirmed sameAnswer⟩
  | processBatch opts =>
      have processing :
          ({ opts with chainId := config.chainId } :
            ProcessBatchOptions).chainId = borders.chain :=
        ofChain
      obtain ⟨sameCounters, processed⟩ :=
        storeAlike.processBatch processing
          (fun _ isRead => Footprint.of_processBatch isRead ▸ isOwn)
      simp only [SharedDb.call]
      generalize Bam.processBatch config.libraries
        { opts with chainId := config.chainId } db.store
        emptyCounters = first at sameCounters processed ⊢
      generalize Bam.processBatch config.libraries
        { opts with chainId := config.chainId } other.store
        emptyCounters = second at sameCounters processed ⊢
      obtain ⟨counters, left⟩ := first
      obtain ⟨otherCounters, right⟩ := second
      cases sameCounters
      cases processed with
      | error error =>
          exact ⟨⟨storeAlike, cursorsAlike⟩, rfl⟩
      | @ok left right same =>
          obtain ⟨stored, result⟩ := left
          obtain ⟨otherStored, otherResult⟩ := right
          obtain ⟨storedAlike, rfl⟩ := same
          exact ⟨⟨storedAlike, cursorsAlike⟩, rfl⟩
  | posterCandidates head =>
      have listed :
          reorgCandidates config.chainId config.posterReorgWindow
              db.store head =
            reorgCandidates config.chainId config.posterReorgWindow
              other.store head := by
        unfold reorgCandidates
        rw [storeAlike.listBatches_eq (congrArg some ofChain)]
      exact ⟨⟨storeAlike, cursorsAlike⟩,
        congrArg ChainAnswer.candidates listed⟩
  | reorgBatch batch invalidatedAt ingestedAt =>
      have reorged :=
        storeAlike.reorgBatch isOwn invalidatedAt ingestedAt
      rw [← ofChain] at reorged
      obtain ⟨next, sameAnswer⟩ :=
        commit_own ⟨storeAlike, cursorsAlike⟩ reorged
      exact ⟨next, congrArg ChainAnswer.reorged sameAnswer⟩
  | readerCandidates head =>
      have listed :
          readerReorgCandidates config.chainId config.readerReorgWindow
              db.store head =
            readerReorgCandidates config.chainId config.readerReorgWindow
              other.store head := by
        unfold readerReorgCandidates
        rw [storeAlike.listBatches_eq (congrArg some ofChain)]
      exact ⟨⟨storeAlike, cursorsAlike⟩,
        congrArg ChainAnswer.candidates listed⟩
  | markReorged batch invalidatedAt =>
      have marked := storeAlike.markReorged batch.txHash invalidatedAt
      rw [← ofChain] at marked
      obtain ⟨next, sameAnswer⟩ :=
        commit_own ⟨storeAlike, cursorsAlike⟩ marked
      exact ⟨next, congrArg ChainAnswer.reorged sameAnswer⟩
  | getCursor =>
      have inside
          {cursors : Table Nat ReaderCursorRow
            ReaderCursorRow.chainId} :
          ∀ row ∈ cursors.rows,
            row.chainId = borders.chain →
              row.ofChain borders.chain = true :=
        fun _ _ same => decide_eq_true same
      have sameRow :
          db.cursors.get? borders.chain =
            other.cursors.get? borders.chain := by
        rw [Table.get?_of_select inside, Table.get?_of_select inside,
          cursorsAlike]
      refine ⟨⟨storeAlike, cursorsAlike⟩, ?_⟩
      simp only [SharedDb.call, ofChain, sameRow]
  | setCursor lastBlockNumber lastTxIndex updatedAt =>
      refine ⟨⟨storeAlike, ?_⟩, rfl⟩
      simp only [SharedDb.call]
      have selected :
          ReaderCursorRow.ofChain borders.chain
            ⟨config.chainId, lastBlockNumber, lastTxIndex,
              updatedAt⟩ = true :=
        decide_eq_true ofChain
      rw [Table.select_put _ selected, Table.select_put _ selected,
        cursorsAlike]
  | resetAll =>
      refine ⟨⟨?_, ?_⟩, rfl⟩
      · have deleted := storeAlike.deleteRows
        rwa [← ofChain] at deleted
      · simp only [SharedDb.call, Table.select_deleteWhere,
          cursorsAlike]

/-- A call of another chain leaves the chain what it found. -/
theorem call_theirs
    (isTheirs : config.chainId ≠ borders.chain)
    (call : ChainCall)
    (isPrint : Footprint.of config call ∈ borders.theirs)
    (alike : borders.AlikeDb db other) :
    borders.AlikeDb (db.call config call).1 other := by
  obtain ⟨storeAlike, cursorsAlike⟩ := alike
  cases call with
  | ingest raw withinRateLimit now =>
      have ingested :=
        ingest_eq config.keccak256 config.ingest raw withinRateLimit
      simp only [Footprint.of] at isPrint
      cases admitted :
          admittedMessage config.keccak256 config.ingest raw
            withinRateLimit with
      | none =>
          rw [admitted] at ingested
          obtain ⟨reason, rejects⟩ := ingested
          simp only [SharedDb.call, rejects]
          exact ⟨storeAlike, cursorsAlike⟩
      | some decoded =>
          rw [admitted] at ingested isPrint
          simp only [SharedDb.call, ingested]
          cases committed :
              Bam.ingestTxn config.ingest db.store decoded now with
          | error error =>
              cases error with
              | _ =>
                  exact ⟨storeAlike, cursorsAlike⟩
          | ok left =>
              exact ⟨storeAlike.ingestTheirTxn isTheirs isPrint
                committed, cursorsAlike⟩
  | snapshot =>
      exact ⟨storeAlike, cursorsAlike⟩
  | confirm outcome submittedAt =>
      exact commit_theirs ⟨storeAlike, cursorsAlike⟩
        fun next committed =>
          storeAlike.confirmTheirIncluded isTheirs isPrint committed
  | processBatch opts =>
      simp only [SharedDb.call]
      cases processed :
          Bam.processBatch config.libraries
            { opts with chainId := config.chainId } db.store
            emptyCounters with
      | mk counters result =>
      cases result with
      | error error =>
          exact ⟨storeAlike, cursorsAlike⟩
      | ok left =>
          have leftAlike :=
            storeAlike.processTheirBatch isTheirs
              (fun _ isRead =>
                Footprint.of_processBatch isRead ▸ isPrint)
              (congrArg Prod.snd processed)
          exact ⟨leftAlike, cursorsAlike⟩
  | posterCandidates head =>
      exact ⟨storeAlike, cursorsAlike⟩
  | reorgBatch batch invalidatedAt ingestedAt =>
      exact commit_theirs ⟨storeAlike, cursorsAlike⟩
        fun next committed =>
          storeAlike.reorgTheirBatch isTheirs isPrint committed
  | readerCandidates head =>
      exact ⟨storeAlike, cursorsAlike⟩
  | markReorged batch invalidatedAt =>
      exact commit_theirs ⟨storeAlike, cursorsAlike⟩
        fun next committed =>
          storeAlike.markTheirReorged isTheirs committed
  | getCursor =>
      exact ⟨storeAlike, cursorsAlike⟩
  | setCursor lastBlockNumber lastTxIndex updatedAt =>
      refine ⟨storeAlike, ?_⟩
      simp only [SharedDb.call]
      rw [← cursorsAlike]
      have outside :
          ReaderCursorRow.ofChain borders.chain
            ⟨config.chainId, lastBlockNumber, lastTxIndex,
              updatedAt⟩ = false :=
        decide_eq_false isTheirs
      apply Table.select_put_of_outside outside
      intro stored _ isOwn sameKey
      have ofTheirs : stored.chainId = config.chainId := sameKey
      exact isTheirs
        (ofTheirs.symm.trans (of_decide_eq_true isOwn))
  | resetAll =>
      refine ⟨storeAlike.deleteTheirRows isTheirs, ?_⟩
      simp only [SharedDb.call]
      rw [← cursorsAlike]
      apply Table.select_deleteWhere_of_outside
      intro row deleted
      have ofTheirs : row.chainId = config.chainId :=
        of_decide_eq_true deleted
      simp [ReaderCursorRow.ofChain, ofTheirs, isTheirs]

end Calls

end Borders

/-- A chain whose calls share no slot, sender, tag or watched transaction with
calls of other chains is isolated from them. -/
theorem isolated_of_keepsClear
    (services : ChainServices)
    (chain : Nat)
    (calls : List (Nat × ChainCall))
    (clear : services.KeepsClear chain calls) :
    services.Isolated chain calls := by
  let borders : Borders := {
    chain := chain
    own := services.footprints calls (ChainServices.isOf chain)
    theirs :=
      services.footprints calls
        fun label => !ChainServices.isOf chain label
    clear := clear }
  have start : borders.AlikeDb SharedDb.empty SharedDb.empty := by
    refine ⟨?_, rfl⟩
    exact {
      bordered := fun row member => absurd member List.not_mem_nil
      otherBordered := fun row member => absurd member List.not_mem_nil
      messages := rfl
      batches := rfl
      nonces := fun _ _ _ _ => rfl
      seqs := fun _ _ _ _ => rfl }
  have unwound :=
    @Purge.run_purged _ _ _ services.step (ChainServices.isOf chain)
      borders.AlikeDb (fun label => label ∈ calls)
      (by
        intro db other label alike member isHidden
        apply Borders.call_theirs _ _ _ alike
        · rw [services.stamped]
          exact of_decide_eq_false isHidden
        · apply List.mem_map.mpr
          refine ⟨label, List.mem_filter.mpr ⟨member, ?_⟩, rfl⟩
          rw [isHidden]
          rfl)
      (by
        intro db other label alike member isShown
        apply Borders.call_own _ _ _ alike
        · rw [services.stamped]
          exact of_decide_eq_true isShown
        · apply List.mem_map.mpr
          exact ⟨label, List.mem_filter.mpr ⟨member, isShown⟩, rfl⟩)
      calls (fun _ member => member) _ _ start
  obtain ⟨⟨storeAlike, cursorsAlike⟩, sameAnswers⟩ := unwound
  unfold ChainServices.Isolated ChainServices.outcome
  dsimp only
  rw [sameAnswers, SharedDb.rowsOf, SharedDb.rowsOf]
  have sameMessages := storeAlike.messages
  have sameBatches := storeAlike.batches
  dsimp only [borders] at sameMessages sameBatches cursorsAlike
  rw [sameMessages, sameBatches, cursorsAlike]

/-- The services of every chain, configured alike. -/
def sampleServices : ChainServices where
  config := fun chain =>
    { sampleConfig with
      ingest := { sampleConfig.ingest with chainId := chain } }
  stamped := fun _ => rfl

/-- A request for a message without contents. -/
def emptyRequest
    (sender : Address)
    (contentTag : Bytes32) : RawEnvelope where
  byteLength := 100
  fields := some {
    contentTag := contentTag
    sender := sender
    nonce := 0
    contents := []
    signature := List.replicate 65 0 }

/-- Another sender's ingest and reset on chain 1 leave chain 2 alone. -/
theorem isolated_otherSenders :
    sampleServices.Isolated 2
      [(1, .ingest (emptyRequest 7 5) true 0),
        (2, .ingest (emptyRequest 8 6) true 1),
        (2, .readerCandidates 10),
        (1, .resetAll)] :=
  isolated_of_keepsClear sampleServices 2 _ (by decide +kernel)

/-- A message ingested on chain 1 keeps the same message off chain 2. -/
theorem slot_shared_between_chains :
    ¬∀ services : ChainServices,
      ∀ (chain : Nat) (calls : List (Nat × ChainCall)),
        services.Isolated chain calls := by
  intro isolated
  have same :=
    isolated sampleServices 2
      [(1, .ingest (emptyRequest 7 5) true 0),
        (2, .ingest (emptyRequest 7 5) true 1)]
  have rows :=
    congrArg (fun outcome => outcome.1.1.length) same
  revert rows
  decide +kernel

end Bam
