import Bam.Lib.Pagination
import Bam.Store.Messages

namespace Bam

/-!
# Listing messages by page

`listMessages` with all its filters, its cursor and its limit, and the client
that takes each cursor from the last row of the page before.
-/

/-- `ChainCoord`. -/
structure Store.ChainCoord where
  blockNumber : Nat
  txIndex : Nat
  messageIndexWithinBatch : Nat
  deriving Repr, DecidableEq

/-- `MessagesQuery`. -/
structure MessagesQuery where
  contentTag : Option Bytes32
  sender : Option Address
  status : Option MessageStatus
  batchRef : Option Bytes32
  sinceBlock : Option Nat
  cursor : Option Store.ChainCoord
  limit : Option Nat
  deriving Repr, DecidableEq

/-- The columns of a cursor in the order of the comparison. -/
def Store.ChainCoord.columns (coord : Store.ChainCoord) : List Nat :=
  [coord.blockNumber, coord.txIndex, coord.messageIndexWithinBatch]

/-- The coordinate columns of a row. -/
def MessageRow.columns (row : MessageRow) : List (Option Nat) :=
  [row.blockNumber, row.txIndex, row.messageIndexWithinBatch]

/-- The coordinates of a row that has all three of them. -/
def MessageRow.chainCoord? (row : MessageRow) : Option Store.ChainCoord :=
  match row.blockNumber, row.txIndex, row.messageIndexWithinBatch with
  | some blockNumber, some txIndex, some messageIndexWithinBatch =>
      some { blockNumber, txIndex, messageIndexWithinBatch }
  | _, _, _ => none

/-- The SQL comparison `(columns) > (values)`: the first pair of columns that
differ decides it, and it is not true where that pair has a null. -/
def rowGreater : List (Option Nat) → List Nat → Bool
  | some column :: columns, value :: values =>
      value < column || (column = value && rowGreater columns values)
  | _, _ => false

namespace MessagesQuery

/-- The conditions of `listMessages` but for the cursor. -/
def matchesRow
    (query : MessagesQuery)
    (row : MessageRow) : Bool :=
  (query.contentTag.all fun contentTag => row.contentTag = contentTag) &&
    (query.sender.all fun sender => row.sender = sender) &&
    (query.status.all fun status => row.status = status) &&
    (query.batchRef.all fun batchRef => row.batchRef = some batchRef) &&
    query.sinceBlock.all fun sinceBlock =>
      row.blockNumber.any fun blockNumber => sinceBlock ≤ blockNumber

/-- The condition on the cursor. -/
def passed
    (query : MessagesQuery)
    (row : MessageRow) : Bool :=
  query.cursor.all fun cursor => rowGreater row.columns cursor.columns

end MessagesQuery

/-- `LIMIT`, where the query has one. -/
def limited
    {ρ : Type}
    (limit : Option Nat)
    (rows : List ρ) : List ρ :=
  match limit with
  | none => rows
  | some count => rows.take count

/-- `listMessages`. -/
def Store.listMessages
    (store : Store)
    (query : MessagesQuery) : List MessageRow :=
  limited query.limit
    (Table.orderBy MessageRow.listOrder
      (store.messages.select fun row =>
        query.matchesRow row && query.passed row))

/-- The query for every matching row. -/
def MessagesQuery.unpaged (query : MessagesQuery) : MessagesQuery :=
  { query with cursor := none, limit := none }

/-- The query for a page. -/
def MessagesQuery.paged
    (query : MessagesQuery)
    (limit : Nat)
    (cursor : Option Store.ChainCoord) : MessagesQuery :=
  { query with cursor := cursor, limit := some limit }

/-- A client that calls `listMessages` page by page. -/
def Store.followMessages
    (store : Store)
    (query : MessagesQuery)
    (limit fuel : Nat) : Option (Except StoreError (List MessageRow)) :=
  Pagination.follow
    (fun cursor => .ok (store.listMessages (query.paged limit cursor)))
    MessageRow.chainCoord? fuel none

/-- The listing of the confirmed rows of a tag, up to a limit. -/
theorem listMessages_confirmed
    (store : Store)
    (contentTag : Bytes32)
    (limit : Option Nat) :
    store.listMessages
        { contentTag := some contentTag
          sender := none
          status := some .confirmed
          batchRef := none
          sinceBlock := none
          cursor := none
          limit := limit } =
      limited limit (store.confirmedMessages contentTag) := by
  simp [Store.listMessages, Store.confirmedMessages,
    MessagesQuery.matchesRow, MessagesQuery.passed]

section Comparison

/-- No row is greater than its own columns. -/
theorem rowGreater_self
    (columns : List Nat) :
    rowGreater (columns.map some) columns = false := by
  induction columns with
  | nil =>
      rfl
  | cons column columns inductionHypothesis =>
      simp [rowGreater, inductionHypothesis]

theorem rowGreater_trans
    {columns : List (Option Nat)}
    {middle values : List Nat}
    (first : rowGreater (middle.map some) values = true)
    (second : rowGreater columns middle = true) :
    rowGreater columns values = true := by
  induction columns generalizing middle values with
  | nil =>
      simp [rowGreater] at second
  | cons column? columns inductionHypothesis =>
      cases column? with
      | none =>
          simp [rowGreater] at second
      | some column =>
          cases middle with
          | nil =>
              simp [rowGreater] at second
          | cons between middle =>
              cases values with
              | nil =>
                  simp [rowGreater] at first
              | cons value values =>
                  simp only [rowGreater, List.map_cons, Bool.or_eq_true,
                    decide_eq_true_eq, Bool.and_eq_true] at first second ⊢
                  rcases first with less | ⟨rfl, later⟩
                  · rcases second with further | ⟨rfl, -⟩
                    · exact .inl (less.trans further)
                    · exact .inl less
                  · rcases second with further | ⟨rfl, laterStill⟩
                    · exact .inl further
                    · exact .inr
                        ⟨rfl, inductionHypothesis later laterStill⟩

/-- Columns of one length are equal, or one of them is greater. -/
theorem rowGreater_total
    {first second : List Nat}
    (sameLength : first.length = second.length) :
    first = second ∨ rowGreater (second.map some) first = true ∨
      rowGreater (first.map some) second = true := by
  induction first generalizing second with
  | nil =>
      cases second with
      | nil =>
          exact .inl rfl
      | cons value values =>
          cases sameLength
  | cons column columns inductionHypothesis =>
      cases second with
      | nil =>
          cases sameLength
      | cons value values =>
          simp only [rowGreater, List.map_cons, Bool.or_eq_true,
            decide_eq_true_eq, Bool.and_eq_true, List.cons.injEq]
          rcases Nat.lt_trichotomy column value with less | rfl | greater
          · exact .inr (.inl (.inl less))
          · rcases inductionHypothesis (Nat.succ.inj sameLength) with
              same | less | greater
            · exact .inl ⟨rfl, same⟩
            · exact .inr (.inl (.inr ⟨rfl, less⟩))
            · exact .inr (.inr (.inr ⟨rfl, greater⟩))
          · exact .inr (.inr (.inl greater))

/-- The part of the listing order that non-null columns make up. -/
def orderOf (columns : List Nat) : List Int :=
  columns.flatMap fun column => Table.ascNullsLast (some (.ofNat column))

/-- Greater columns are listed later, whatever follows them. -/
theorem order_lt_of_rowGreater
    {first second : List Nat}
    {before after : List Int}
    (greater : rowGreater (second.map some) first = true) :
    orderOf first ++ before < orderOf second ++ after := by
  induction first generalizing second with
  | nil =>
      cases second <;> simp [rowGreater] at greater
  | cons column columns inductionHypothesis =>
      cases second with
      | nil =>
          simp [rowGreater] at greater
      | cons value values =>
          simp only [rowGreater, List.map_cons, Bool.or_eq_true,
            decide_eq_true_eq, Bool.and_eq_true] at greater
          simp only [orderOf, Table.ascNullsLast, List.flatMap_cons,
            List.cons_append, List.nil_append, List.cons_lt_cons_iff]
          rcases greater with less | ⟨rfl, later⟩
          · exact .inr ⟨trivial, .inl (Int.ofNat_lt.mpr less)⟩
          · exact .inr ⟨trivial, .inr ⟨rfl, inductionHypothesis later⟩⟩

end Comparison

section Coordinates

variable {row first second : MessageRow}
variable {coord before after : Store.ChainCoord}

/-- A row with coordinates has them in its columns. -/
theorem columns_of_chainCoord?
    (placed : row.chainCoord? = some coord) :
    row.columns = coord.columns.map some := by
  rw [MessageRow.chainCoord?] at placed
  split at placed
  · rename_i blockNumber txIndex index isBlock isTx isIndex
    cases placed
    rw [MessageRow.columns, isBlock, isTx, isIndex]
    rfl
  · cases placed

theorem columns_inj
    (same : before.columns = after.columns) :
    before = after := by
  cases before
  cases after
  simpa [Store.ChainCoord.columns] using same

/-- The listing order of a row with coordinates. -/
theorem listOrder_of_chainCoord?
    (placed : row.chainCoord? = some coord) :
    row.listOrder =
      orderOf coord.columns ++
        Table.ascNullsLast (row.ingestSeq.map Int.ofNat) := by
  have isColumns := columns_of_chainCoord? placed
  simp only [MessageRow.columns, Store.ChainCoord.columns, List.map_cons,
    List.map_nil, List.cons.injEq, and_true] at isColumns
  obtain ⟨isBlock, isTx, isIndex⟩ := isColumns
  rw [MessageRow.listOrder, isBlock, isTx, isIndex]
  simp [orderOf, Store.ChainCoord.columns]

/-- A row listed before another is not greater than it. -/
theorem not_rowGreater_of_listed
    (listed : first.listOrder ≤ second.listOrder)
    (isFirst : first.chainCoord? = some before)
    (isSecond : second.chainCoord? = some after) :
    rowGreater first.columns after.columns = false := by
  rw [columns_of_chainCoord? isFirst]
  by_contra greater
  have later :=
    @order_lt_of_rowGreater after.columns before.columns
      (Table.ascNullsLast (second.ingestSeq.map Int.ofNat))
      (Table.ascNullsLast (first.ingestSeq.map Int.ofNat))
      ((Bool.not_eq_false _).mp greater)
  rw [← listOrder_of_chainCoord? isFirst,
    ← listOrder_of_chainCoord? isSecond] at later
  exact not_lt.mpr listed later

/-- A row listed before another with other coordinates is less than it. -/
theorem rowGreater_of_listed
    (listed : first.listOrder ≤ second.listOrder)
    (isFirst : first.chainCoord? = some before)
    (isSecond : second.chainCoord? = some after)
    (differ : before ≠ after) :
    rowGreater second.columns before.columns = true := by
  have notLess := not_rowGreater_of_listed listed isFirst isSecond
  rw [columns_of_chainCoord? isFirst] at notLess
  rw [columns_of_chainCoord? isSecond]
  rcases @rowGreater_total before.columns after.columns rfl with
    same | greater | less
  · exact absurd (columns_inj same) differ
  · exact greater
  · rw [notLess] at less
    cases less

end Coordinates

/-- The rows of a query as a listing with chain coordinates for cursors. -/
def Store.messageListing
    (store : Store)
    (query : MessagesQuery) :
    Pagination.Listing MessageRow Store.ChainCoord where
  rows := store.listMessages query.unpaged
  cursorOf := MessageRow.chainCoord?
  behind := fun cursor row => rowGreater row.columns cursor.columns
  distinct := by
    have keys : store.messages.rows.Nodup :=
      List.Nodup.of_map _ store.messages.keysNodup
    exact (Table.orderBy_perm _ _).nodup_iff.mpr (keys.filter _)
  past := by
    intro row cursor placed
    rw [columns_of_chainCoord? placed]
    exact rowGreater_self cursor.columns
  onward := by
    intro row cursor first other placed isBehind isLater
    rw [columns_of_chainCoord? placed] at isBehind
    exact rowGreater_trans isBehind isLater

/-- A page of `listMessages` is a page of the listing. -/
theorem listMessages_paged
    (store : Store)
    (query : MessagesQuery)
    (limit : Nat)
    (cursor? : Option Store.ChainCoord) :
    store.listMessages (query.paged limit cursor?) =
      (store.messageListing query).page limit cursor? := by
  rw [Pagination.Listing.page, Store.listMessages]
  simp only [MessagesQuery.paged, limited]
  cases cursor? with
  | none =>
      rfl
  | some cursor =>
      simp only [Pagination.Listing.remaining, Store.messageListing,
        Store.listMessages, MessagesQuery.unpaged, limited,
        Table.filter_orderBy, Table.select, List.filter_filter]
      simp [MessagesQuery.matchesRow, MessagesQuery.passed, Bool.and_comm]

end Bam
