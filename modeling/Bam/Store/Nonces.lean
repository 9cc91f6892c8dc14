import Bam.Store.Batches

namespace Bam

/-!
# The nonce tracker and the per-tag ingest sequence
-/

namespace Store

/-- `getNonce`. -/
def getNonce
    (store : Store)
    (sender : Address) : Option NonceTrackerRow :=
  store.nonces.get? sender

/-- `setNonce`. -/
def setNonce
    (store : Store)
    (row : NonceTrackerRow) : Except StoreError Store :=
  if row.lastNonce ≤ MAX_NONCE then
    .ok { store with nonces := store.nonces.put row }
  else
    .error (.nonceOutOfRange row.lastNonce)

/-- `getMaxNonReorgedNonce`: the highest slot of a sender that is taken. -/
def getMaxNonReorgedNonce
    (store : Store)
    (sender : Address) : Option NonceTrackerRow :=
  let taken :=
    Table.orderBy
      (fun row => Table.descNullsLast (some (row.nonce : Int)))
      (store.messages.select fun row =>
        row.sender = sender && row.status ≠ .reorged)
  taken.head?.map fun row =>
    { sender := sender
      lastNonce := row.nonce
      lastMessageHash := row.messageHash }

/-- `nextIngestSeq`: bump the tag's counter and return it. -/
def nextIngestSeq
    (store : Store)
    (tag : Bytes32) : Store × Nat :=
  let seq :=
    match store.tagSeq.get? tag with
    | none => 1
    | some row => row.lastSeq + 1
  ({ store with
      tagSeq := store.tagSeq.put { contentTag := tag, lastSeq := seq } },
    seq)

@[simp] theorem messages_nextIngestSeq
    (store : Store)
    (tag : Bytes32) :
    (store.nextIngestSeq tag).1.messages = store.messages :=
  rfl

@[simp] theorem message?_nextIngestSeq
    (store : Store)
    (tag : Bytes32)
    (key : MessageKey) :
    (store.nextIngestSeq tag).1.message? key = store.message? key :=
  rfl

@[simp] theorem batches_nextIngestSeq
    (store : Store)
    (tag : Bytes32) :
    (store.nextIngestSeq tag).1.batches = store.batches :=
  rfl

@[simp] theorem nonces_nextIngestSeq
    (store : Store)
    (tag : Bytes32) :
    (store.nextIngestSeq tag).1.nonces = store.nonces :=
  rfl

/-- What a successful `setNonce` did. -/
theorem setNonce_ok
    {store next : Store}
    {row : NonceTrackerRow}
    (set : store.setNonce row = .ok next) :
    row.lastNonce ≤ MAX_NONCE ∧
      next = { store with nonces := store.nonces.put row } := by
  unfold setNonce at set
  split at set
  · rename_i inRange
    cases set
    exact ⟨inRange, rfl⟩
  · cases set

/-- The highest taken slot of a sender belongs to a live row. -/
theorem getMaxNonReorgedNonce_some
    {store : Store}
    {sender : Address}
    {tracker : NonceTrackerRow}
    (found : store.getMaxNonReorgedNonce sender = some tracker) :
    tracker.sender = sender ∧
      ∃ row ∈ store.messages.rows,
        row.sender = sender ∧
        row.nonce = tracker.lastNonce ∧
        row.messageHash = tracker.lastMessageHash ∧
        row.status ≠ .reorged := by
  unfold getMaxNonReorgedNonce at found
  obtain ⟨row, isHead, rfl⟩ := Option.map_eq_some_iff.mp found
  have member := Table.mem_orderBy.mp (List.mem_of_mem_head? isHead)
  have facts := Table.mem_select.mp member
  simp only [ne_eq, decide_not, Bool.and_eq_true, decide_eq_true_eq,
    Bool.not_eq_eq_eq_not, Bool.not_true,
    decide_eq_false_iff_not] at facts
  exact ⟨rfl, row, facts.1, facts.2.1, rfl, rfl, facts.2.2⟩

end Store

end Bam
