import Bam.Store.Nonces

namespace Bam

/-!
# Recording an observed batch

A batch row and the rows of its messages, written in one transaction.  A row
whose slot is taken by another message is skipped.
-/

/-- The slot holds a confirmed row. -/
def Store.ConfirmedSlot
    (store : Store)
    (key : MessageKey) : Prop :=
  ∃ row, store.message? key = some row ∧ row.status = .confirmed

namespace Store

/-- One observed row, whatever the write answers. -/
def observe
    (store : Store)
    (row : MessageRow) : Store :=
  match store.upsertObserved row with
  | .ok next => next
  | .error _ => store

/-- A batch row followed by the rows of its messages. -/
def recordBatch
    (store : Store)
    (batch : BatchRow)
    (rows : List MessageRow) : Store :=
  rows.foldl observe (store.upsertBatch batch)

@[simp] theorem batches_observe
    (store : Store)
    (row : MessageRow) :
    (store.observe row).batches = store.batches := by
  unfold observe
  split
  · rename_i observed
    exact batches_upsertObserved observed
  · rfl

@[simp] theorem batches_foldl_observe
    (store : Store)
    (rows : List MessageRow) :
    (rows.foldl observe store).batches = store.batches := by
  induction rows generalizing store with
  | nil =>
      rfl
  | cons row rest inductionHypothesis =>
      rw [List.foldl_cons, inductionHypothesis, batches_observe]

@[simp] theorem nonces_observe
    (store : Store)
    (row : MessageRow) :
    (store.observe row).nonces = store.nonces := by
  unfold observe
  split
  · rename_i observed
    exact nonces_upsertObserved observed
  · rfl

@[simp] theorem nonces_recordBatch
    (store : Store)
    (batch : BatchRow)
    (rows : List MessageRow) :
    (store.recordBatch batch rows).nonces = store.nonces := by
  have folded (start : Store) :
      (rows.foldl observe start).nonces = start.nonces := by
    induction rows generalizing start with
    | nil =>
        rfl
    | cons row rest inductionHypothesis =>
        rw [List.foldl_cons, inductionHypothesis, nonces_observe]
  rw [recordBatch, folded, nonces_upsertBatch]

@[simp] theorem batch?_recordBatch
    (store : Store)
    (batch : BatchRow)
    (rows : List MessageRow)
    (key : BatchKey) :
    (store.recordBatch batch rows).batch? key =
      (store.upsertBatch batch).batch? key := by
  rw [recordBatch, batch?, batches_foldl_observe, batch?]

/-- The batch rows after a batch was recorded. -/
theorem mem_batches_recordBatch
    {store : Store}
    {batch other : BatchRow}
    {rows : List MessageRow} :
    other ∈ (store.recordBatch batch rows).batches.rows ↔
      other = store.merged batch ∨
        (other ∈ store.batches.rows ∧ other.key ≠ batch.key) := by
  rw [recordBatch, batches_foldl_observe]
  exact mem_upsertBatch

/-- A slot after one observed row: as before, or the row took it. -/
theorem message?_observe
    (store : Store)
    (row : MessageRow)
    (key : MessageKey) :
    (store.observe row).message? key = store.message? key ∨
      row.key = key ∧
        (store.observe row).message? key = some row ∧
        ∀ existing, store.message? key = some existing →
          existing.messageHash = row.messageHash ∧
          existing.status ≠ .confirmed := by
  cases observed : store.upsertObserved row with
  | error error =>
      have unchanged : store.observe row = store := by
        rw [observe, observed]
      exact .inl (by rw [unchanged])
  | ok next =>
      have stored : store.observe row = next := by
        rw [observe, observed]
      rw [stored]
      rcases (upsertObserved_ok observed).2 with
        ⟨rfl, -⟩ | ⟨rfl, replaceable⟩
      · exact .inl rfl
      · rw [message?_putMessage]
        by_cases sameKey : row.key = key
        · subst sameKey
          rw [if_pos rfl]
          exact .inr ⟨rfl, rfl, replaceable⟩
        · exact .inl (if_neg sameKey)

/-- A slot after a list of observed rows: as before, or one of them took it,
and then it was free or held the same message unconfirmed. -/
theorem message?_foldl_observe
    (store : Store)
    (rows : List MessageRow)
    (key : MessageKey) :
    (rows.foldl observe store).message? key = store.message? key ∨
      ∃ row ∈ rows,
        row.key = key ∧
        (rows.foldl observe store).message? key = some row ∧
        ∀ existing, store.message? key = some existing →
          existing.messageHash = row.messageHash ∧
          existing.status ≠ .confirmed := by
  induction rows generalizing store with
  | nil =>
      exact .inl rfl
  | cons first rest inductionHypothesis =>
      rw [List.foldl_cons]
      rcases inductionHypothesis (store.observe first) with
        later | ⟨row, member, ofKey, isRow, replaceable⟩
      · rw [later]
        rcases message?_observe store first key with same | taken
        · exact .inl same
        · exact .inr ⟨first, List.mem_cons_self, taken⟩
      · refine .inr ⟨row, List.mem_cons_of_mem first member, ofKey,
          isRow, ?_⟩
        intro existing found
        rcases message?_observe store first key with
          same | ⟨-, isFirst, overFirst⟩
        · exact replaceable existing (same.trans found)
        · have sameAsFirst := (replaceable first isFirst).1
          have overExisting := overFirst existing found
          exact ⟨overExisting.1.trans sameAsFirst, overExisting.2⟩

/-- A confirmed slot survives observed rows unchanged. -/
theorem message?_foldl_observe_of_confirmed
    {store : Store}
    {key : MessageKey}
    {existing : MessageRow}
    (rows : List MessageRow)
    (found : store.message? key = some existing)
    (confirmed : existing.status = .confirmed) :
    (rows.foldl observe store).message? key = some existing := by
  rcases message?_foldl_observe store rows key with
    same | ⟨row, -, -, -, replaceable⟩
  · exact same.trans found
  · exact absurd confirmed (replaceable existing found).2

/-- An observed row takes a slot that is free or holds the same message. -/
theorem message?_observe_self
    {store : Store}
    {row : MessageRow}
    (inRange : row.nonce ≤ MAX_NONCE)
    (confirmed : row.status = .confirmed)
    (fits :
      ∀ existing, store.message? row.key = some existing →
        existing.status = .confirmed ∨
          existing.messageHash = row.messageHash) :
    (store.observe row).ConfirmedSlot row.key := by
  unfold observe upsertObserved
  rw [if_pos inRange]
  cases found : store.message? row.key with
  | none =>
      exact ⟨row, by simp [message?_putMessage], confirmed⟩
  | some existing =>
      by_cases sameHash : existing.messageHash = row.messageHash
      · by_cases final : existing.status = .confirmed
        · simp only [ne_eq, sameHash, not_true, final, if_true, if_false]
          exact ⟨existing, found, final⟩
        · simp only [ne_eq, sameHash, not_true, final, if_false]
          exact ⟨row, by simp [message?_putMessage], confirmed⟩
      · have final := (fits existing found).resolve_right sameHash
        simp only [ne_eq, sameHash, not_false_eq_true, if_true]
        exact ⟨existing, found, final⟩

/-- Every observed row that fits its slot leaves the slot confirmed. -/
theorem confirmedSlot_foldl_observe
    {store : Store}
    {rows : List MessageRow}
    {row : MessageRow}
    (inRange : ∀ other ∈ rows, other.nonce ≤ MAX_NONCE)
    (confirmed : ∀ other ∈ rows, other.status = .confirmed)
    (member : row ∈ rows)
    (fits :
      ∀ existing, store.message? row.key = some existing →
        existing.status = .confirmed ∨
          existing.messageHash = row.messageHash) :
    (rows.foldl observe store).ConfirmedSlot row.key := by
  induction rows generalizing store with
  | nil =>
      cases member
  | cons first rest inductionHypothesis =>
      rw [List.foldl_cons]
      rcases List.mem_cons.mp member with isFirst | inRest
      · subst isFirst
        obtain ⟨taken, found, final⟩ :=
          message?_observe_self
            (inRange row List.mem_cons_self)
            (confirmed row List.mem_cons_self) fits
        exact ⟨taken,
          message?_foldl_observe_of_confirmed rest found final, final⟩
      · apply inductionHypothesis
          (fun other isRest =>
            inRange other (List.mem_cons_of_mem first isRest))
          (fun other isRest =>
            confirmed other (List.mem_cons_of_mem first isRest))
          inRest
        intro existing found
        rcases message?_observe store first row.key with
          same | ⟨-, isFirst, -⟩
        · exact fits existing (same.symm.trans found)
        · have isExisting : existing = first :=
            Option.some.inj (found.symm.trans isFirst)
          subst isExisting
          exact .inl (confirmed existing List.mem_cons_self)

/-- The row of a slot after a batch was recorded. -/
theorem message?_recordBatch
    (store : Store)
    (batch : BatchRow)
    (rows : List MessageRow)
    (key : MessageKey) :
    (store.recordBatch batch rows).message? key = store.message? key ∨
      ∃ row ∈ rows,
        row.key = key ∧
        (store.recordBatch batch rows).message? key = some row ∧
        ∀ existing, store.message? key = some existing →
          existing.messageHash = row.messageHash ∧
          existing.status ≠ .confirmed := by
  have taken :=
    message?_foldl_observe (store.upsertBatch batch) rows key
  rw [message?_upsertBatch] at taken
  exact taken

/-- A confirmed slot survives the recording of a batch. -/
theorem message?_recordBatch_of_confirmed
    {store : Store}
    {key : MessageKey}
    {existing : MessageRow}
    (batch : BatchRow)
    (rows : List MessageRow)
    (found : store.message? key = some existing)
    (confirmed : existing.status = .confirmed) :
    (store.recordBatch batch rows).message? key = some existing := by
  apply message?_foldl_observe_of_confirmed rows _ confirmed
  rw [message?_upsertBatch]
  exact found

end Store

end Bam
