import Bam.Store.Rows

namespace Bam

/-!
# Handler cursors

The rows of `indexer.cursor` of one handler name.  A generation is keyed by its
version id, and a partial unique index allows one current generation.  A table
that breaks the index cannot be built, so a statement that would break it
fails.
-/

/-- A position on chain; genesis lies before every message. -/
structure ChainCoord where
  blockNumber : Int
  txIndex : Int
  msgIndex : Int
  deriving Repr, DecidableEq

/-- The columns a coordinate is ordered by. -/
def ChainCoord.sortKey (coord : ChainCoord) : List Int :=
  [coord.blockNumber, coord.txIndex, coord.msgIndex]

/-- The strict order the `WHERE` clause of `listConfirmedAfter` spells out. -/
def ChainCoord.isBefore
    (first second : ChainCoord) : Bool :=
  first.blockNumber < second.blockNumber ||
    (second.blockNumber = first.blockNumber &&
      first.txIndex < second.txIndex) ||
    (second.blockNumber = first.blockNumber &&
      second.txIndex = first.txIndex && first.msgIndex < second.msgIndex)

/-- The spelled-out order is the lexicographic one. -/
theorem ChainCoord.isBefore_iff
    (first second : ChainCoord) :
    first.isBefore second = true ↔ first.sortKey < second.sortKey := by
  simp only [isBefore, sortKey, List.cons_lt_cons_iff, Bool.or_eq_true,
    Bool.and_eq_true, decide_eq_true_eq, List.not_lt_nil, and_false,
    or_false]
  constructor
  · rintro ((block | ⟨sameBlock, tx⟩) | ⟨⟨sameBlock, sameTx⟩, index⟩)
    · exact .inl block
    · exact .inr ⟨sameBlock.symm, .inl tx⟩
    · exact .inr ⟨sameBlock.symm, .inr ⟨sameTx.symm, index⟩⟩
  · rintro (block | ⟨sameBlock, tx | ⟨sameTx, index⟩⟩)
    · exact .inl (.inl block)
    · exact .inl (.inr ⟨sameBlock.symm, tx⟩)
    · exact .inr ⟨⟨sameBlock.symm, sameTx.symm⟩, index⟩

structure HandlerCursor where
  handlerVersion : Nat
  versionId : Nat
  isCurrent : Bool
  supersededAt : Option Int
  lastBlockNumber : Int
  lastTxIndex : Int
  lastMsgIndex : Int
  lastReorgInvalidatedAt : Int
  updatedAt : Int
  deriving Repr, DecidableEq

/-- The forward cursor of a generation. -/
def HandlerCursor.forward (cursor : HandlerCursor) : ChainCoord where
  blockNumber := cursor.lastBlockNumber
  txIndex := cursor.lastTxIndex
  msgIndex := cursor.lastMsgIndex

/-- A new current generation at `CURSOR_GENESIS`. -/
def HandlerCursor.genesis
    (handlerVersion versionId : Nat)
    (now : Int) : HandlerCursor where
  handlerVersion := handlerVersion
  versionId := versionId
  isCurrent := true
  supersededAt := none
  lastBlockNumber := -1
  lastTxIndex := -1
  lastMsgIndex := -1
  lastReorgInvalidatedAt := -1
  updatedAt := now

/-- The cursor rows of a handler, under `cursor_one_current_per_handler`. -/
structure HandlerCursors where
  table : Table Nat HandlerCursor HandlerCursor.versionId
  oneCurrent :
    ∀ first ∈ table.rows, ∀ second ∈ table.rows,
      first.isCurrent = true → second.isCurrent = true → first = second

namespace HandlerCursors

def empty : HandlerCursors where
  table := Table.empty
  oneCurrent _ member := absurd member List.not_mem_nil

/-- The generation of a version id. -/
def get?
    (cursors : HandlerCursors)
    (versionId : Nat) : Option HandlerCursor :=
  cursors.table.get? versionId

def getCurrentCursor (cursors : HandlerCursors) : Option HandlerCursor :=
  cursors.table.rows.find? HandlerCursor.isCurrent

/-- Another generation than the given one is current. -/
def otherCurrent
    (cursors : HandlerCursors)
    (versionId : Nat) : Bool :=
  cursors.table.rows.any fun row =>
    row.isCurrent && row.versionId ≠ versionId

/-- `upsertCursor`; `none` where the unique index refuses the row. -/
def upsertCursor
    (cursors : HandlerCursors)
    (cursor : HandlerCursor) : Option HandlerCursors :=
  if refused :
      (cursor.isCurrent && cursors.otherCurrent cursor.versionId) = true then
    none
  else
    some {
      table := cursors.table.put cursor
      oneCurrent := by
        have others :
            ∀ row ∈ cursors.table.rows,
              row.versionId ≠ cursor.versionId →
              cursor.isCurrent = true → row.isCurrent = false := by
          intro row member differs isCurrent
          by_contra current
          refine refused ?_
          rw [isCurrent, Bool.true_and]
          refine List.any_eq_true.mpr ⟨row, member, ?_⟩
          simp [Bool.not_eq_false _ ▸ current, differs]
        intro first isFirst second isSecond firstCurrent secondCurrent
        rcases Table.mem_put.mp isFirst with rfl | ⟨firstOld, firstKey⟩
        · rcases Table.mem_put.mp isSecond with rfl | ⟨secondOld, secondKey⟩
          · rfl
          · rw [others second secondOld secondKey firstCurrent]
              at secondCurrent
            cases secondCurrent
        · rcases Table.mem_put.mp isSecond with rfl | ⟨secondOld, -⟩
          · rw [others first firstOld firstKey secondCurrent]
              at firstCurrent
            cases firstCurrent
          · exact cursors.oneCurrent first firstOld second secondOld
              firstCurrent secondCurrent }

/-- A generation as `supersedeCurrent` leaves it. -/
def superseded
    (now : Int)
    (cursor : HandlerCursor) : HandlerCursor :=
  { cursor with
    isCurrent := false
    supersededAt := some now
    updatedAt := now }

def supersedeCurrent
    (cursors : HandlerCursors)
    (now : Int) : HandlerCursors where
  table :=
    cursors.table.update HandlerCursor.isCurrent (superseded now)
      fun _ => rfl
  oneCurrent := by
    intro first isFirst second _ firstCurrent
    obtain ⟨old, -, rfl⟩ := Table.mem_update.mp isFirst
    split at firstCurrent
    · cases firstCurrent
    · rename_i notCurrent
      exact absurd firstCurrent notCurrent

/-- `DELETE … WHERE version_id = $2`. -/
def deleteCursor
    (cursors : HandlerCursors)
    (versionId : Nat) : HandlerCursors where
  table := cursors.table.deleteWhere fun row => row.versionId = versionId
  oneCurrent first isFirst second isSecond :=
    cursors.oneCurrent first (List.mem_filter.mp isFirst).1 second
      (List.mem_filter.mp isSecond).1

/-- `deleteAllCursors`. -/
def deleteAllCursors (_ : HandlerCursors) : HandlerCursors :=
  empty

variable {cursors next : HandlerCursors}
variable {cursor : HandlerCursor}

/-- The current generation is the row whose flag is set. -/
theorem getCurrentCursor_eq_some_iff :
    cursors.getCurrentCursor = some cursor ↔
      cursors.get? cursor.versionId = some cursor ∧
        cursor.isCurrent = true := by
  unfold getCurrentCursor get?
  constructor
  · intro found
    exact ⟨Table.mem_rows_iff.mp (List.mem_of_find?_eq_some found),
      List.find?_some found⟩
  · rintro ⟨found, isCurrent⟩
    have member := Table.mem_of_get? found
    cases searched : cursors.table.rows.find? HandlerCursor.isCurrent with
    | none =>
        exact absurd isCurrent
          (List.find?_eq_none.mp searched cursor member)
    | some other =>
        rw [cursors.oneCurrent other (List.mem_of_find?_eq_some searched)
          cursor member (List.find?_some searched) isCurrent]

/-- What a successful `upsertCursor` leaves. -/
theorem upsertCursor_eq_some
    (upserted : cursors.upsertCursor cursor = some next) :
    next.table = cursors.table.put cursor ∧
      (cursor.isCurrent = true →
        cursors.otherCurrent cursor.versionId = false) := by
  unfold upsertCursor at upserted
  split at upserted
  · cases upserted
  · rename_i allowed
    cases upserted
    refine ⟨rfl, fun isCurrent => ?_⟩
    rw [isCurrent, Bool.true_and, Bool.not_eq_true] at allowed
    exact allowed

theorem get?_upsertCursor
    (upserted : cursors.upsertCursor cursor = some next)
    (versionId : Nat) :
    next.get? versionId =
      if cursor.versionId = versionId then some cursor
      else cursors.get? versionId := by
  unfold get?
  rw [(upsertCursor_eq_some upserted).1, Table.get?_put]

/-- A current generation that is upserted is the current generation. -/
theorem getCurrentCursor_upsertCursor
    (upserted : cursors.upsertCursor cursor = some next)
    (isCurrent : cursor.isCurrent = true) :
    next.getCurrentCursor = some cursor := by
  rw [getCurrentCursor_eq_some_iff, get?_upsertCursor upserted,
    if_pos rfl]
  exact ⟨rfl, isCurrent⟩

/-- Where no other generation is current, every cursor can be written. -/
theorem upsertCursor_of_alone
    (alone : cursors.otherCurrent cursor.versionId = false) :
    ∃ next, cursors.upsertCursor cursor = some next := by
  unfold upsertCursor
  rw [dif_neg (by simp [alone])]
  exact ⟨_, rfl⟩

/-- The current generation can always be written back. -/
theorem upsertCursor_of_current
    {forward : HandlerCursor}
    (current : cursors.getCurrentCursor = some forward)
    (same : cursor.versionId = forward.versionId) :
    ∃ next, cursors.upsertCursor cursor = some next := by
  obtain ⟨found, isCurrent⟩ := getCurrentCursor_eq_some_iff.mp current
  have noOther : cursors.otherCurrent cursor.versionId = false := by
    refine List.any_eq_false.mpr fun row member => ?_
    rw [Bool.and_eq_true, not_and]
    intro rowCurrent
    have isForward :=
      cursors.oneCurrent row member forward (Table.mem_of_get? found)
        rowCurrent isCurrent
    simp [isForward, same]
  exact upsertCursor_of_alone noOther

theorem get?_supersedeCurrent
    (now : Int)
    (versionId : Nat) :
    (cursors.supersedeCurrent now).get? versionId =
      (cursors.get? versionId).map fun row =>
        if row.isCurrent then superseded now row else row :=
  Table.get?_update cursors.table HandlerCursor.isCurrent
    (superseded now) (fun _ => rfl) versionId

end HandlerCursors

end Bam
