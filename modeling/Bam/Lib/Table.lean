import Mathlib.Data.List.Nodup
import Mathlib.Data.List.Lex
import Mathlib.Data.List.Sort

/-!
# Keyed tables

A relational table is a list of rows no two of which share their primary key.
The key is a function of the row, so a row carries its own key and an update
that keeps the key keeps the table well formed.  The uniqueness of keys is a
field of the structure: a table with two rows under one key cannot be built.
-/

/-- A table of rows `ρ` with primary key `key`. -/
structure Table (κ ρ : Type*) (key : ρ → κ) where
  rows : List ρ
  keysNodup : (rows.map key).Nodup

namespace Table

variable {κ ρ : Type*} {key : ρ → κ}

/-- The table without rows. -/
def empty : Table κ ρ key where
  rows := []
  keysNodup := List.nodup_nil

/-- `SELECT … WHERE p`. -/
def select
    (table : Table κ ρ key)
    (p : ρ → Bool) : List ρ :=
  table.rows.filter p

/-- `UPDATE … SET f WHERE p`, for an update that leaves the key alone. -/
def update
    (table : Table κ ρ key)
    (p : ρ → Bool)
    (f : ρ → ρ)
    (keepsKey : ∀ row, key (f row) = key row) :
    Table κ ρ key where
  rows := table.rows.map fun row => if p row then f row else row
  keysNodup := by
    have sameKeys :
        (table.rows.map fun row =>
            if p row then f row else row).map key =
          table.rows.map key := by
      rw [List.map_map]
      apply List.map_congr_left
      intro row _
      by_cases selected : p row <;>
        simp [selected, keepsKey]
    rw [sameKeys]
    exact table.keysNodup

theorem rows_update
    (table : Table κ ρ key)
    (p : ρ → Bool)
    (f : ρ → ρ)
    (keepsKey : ∀ row, key (f row) = key row) :
    (table.update p f keepsKey).rows =
      table.rows.map fun row => if p row then f row else row :=
  rfl

/-- `DELETE … WHERE p`. -/
def deleteWhere
    (table : Table κ ρ key)
    (p : ρ → Bool) : Table κ ρ key where
  rows := table.rows.filter fun row => !p row
  keysNodup :=
    table.keysNodup.sublist (List.filter_sublist.map key)

/-- `ORDER BY column ASC NULLS LAST`, as a prefix of a sort key. -/
def ascNullsLast : Option Int → List Int
  | none => [1]
  | some value => [0, value]

/-- `ORDER BY column DESC NULLS LAST`, as a prefix of a sort key. -/
def descNullsLast : Option Int → List Int
  | none => [1]
  | some value => [0, -value]

/-- `ORDER BY`: a stable sort by the lexicographic order of sort keys. -/
def orderBy
    (sortKey : ρ → List Int)
    (rows : List ρ) : List ρ :=
  rows.insertionSort fun first second =>
    sortKey first ≤ sortKey second

@[simp] theorem mem_orderBy
    {sortKey : ρ → List Int}
    {rows : List ρ}
    {row : ρ} :
    row ∈ orderBy sortKey rows ↔ row ∈ rows :=
  List.mem_insertionSort _

/-- Ordering rearranges the rows. -/
theorem orderBy_perm
    (sortKey : ρ → List Int)
    (rows : List ρ) :
    List.Perm (orderBy sortKey rows) rows :=
  List.perm_insertionSort _ _

/-- Ordering orders the rows. -/
theorem orderBy_ordered
    (sortKey : ρ → List Int)
    (rows : List ρ) :
    (orderBy sortKey rows).Pairwise
      fun first second => sortKey first ≤ sortKey second :=
  List.pairwise_insertionSort
    (fun first second => sortKey first ≤ sortKey second) _

/-- Inserting a row into an ordered list and selecting from it can be done in
either order. -/
theorem filter_orderedInsert
    {sortKey : ρ → List Int}
    {rows : List ρ}
    (p : ρ → Bool)
    (row : ρ)
    (ordered :
      rows.Pairwise fun first second => sortKey first ≤ sortKey second) :
    (rows.orderedInsert
        (fun first second => sortKey first ≤ sortKey second) row).filter p =
      if p row then
        (rows.filter p).orderedInsert
          (fun first second => sortKey first ≤ sortKey second) row
      else rows.filter p := by
  induction rows with
  | nil =>
      cases isSelected : p row <;> simp [isSelected]
  | cons first rest inductionHypothesis =>
      rw [List.pairwise_cons] at ordered
      by_cases before : sortKey row ≤ sortKey first
      · rw [List.orderedInsert_cons, if_pos before, List.filter_cons]
        split
        · cases selected : (first :: rest).filter p with
          | nil =>
              rfl
          | cons other others =>
              have member : other ∈ first :: rest :=
                (List.mem_filter.mp
                  (selected ▸ List.mem_cons_self)).1
              have notLater : sortKey row ≤ sortKey other := by
                rcases List.mem_cons.mp member with rfl | isLater
                · exact before
                · exact le_trans before (ordered.1 other isLater)
              rw [List.orderedInsert_cons, if_pos notLater]
        · rfl
      · rw [List.orderedInsert_cons, if_neg before, List.filter_cons,
          inductionHypothesis ordered.2, List.filter_cons]
        by_cases isSelected : p first
        · rw [if_pos isSelected, if_pos isSelected]
          split
          · rw [List.orderedInsert_cons, if_neg before]
          · rfl
        · rw [if_neg isSelected, if_neg isSelected]

/-- Selecting from ordered rows is ordering the selected ones. -/
theorem filter_orderBy
    (sortKey : ρ → List Int)
    (p : ρ → Bool)
    (rows : List ρ) :
    (orderBy sortKey rows).filter p = orderBy sortKey (rows.filter p) := by
  induction rows with
  | nil =>
      rfl
  | cons row rest inductionHypothesis =>
      have inserted :=
        filter_orderedInsert p row (orderBy_ordered sortKey rest)
      rw [inductionHypothesis] at inserted
      rw [List.filter_cons]
      refine inserted.trans ?_
      split <;> rfl
/-- In an ordered list, a row with a smaller key than another stands before
it. -/
theorem mem_leading_of_lt
    {sortKey : ρ → List Int}
    {leading trailing : List ρ}
    {row other : ρ}
    (ordered :
      (leading ++ other :: trailing).Pairwise
        fun first second => sortKey first ≤ sortKey second)
    (member : row ∈ leading ++ other :: trailing)
    (less : sortKey row < sortKey other) :
    row ∈ leading := by
  rcases List.mem_append.mp member with before | isLater
  · exact before
  have after := (List.pairwise_append.mp ordered).2.1
  rcases List.mem_cons.mp isLater with rfl | behind
  · exact absurd less (lt_irrefl _)
  · have notLess := (List.pairwise_cons.mp after).1 row behind
    exact absurd less (not_lt.mpr notLess)

/-- A prefix of an ordered list holds every row with a smaller key than one it
holds. -/
theorem mem_take_of_lt
    {sortKey : ρ → List Int}
    {rows : List ρ}
    (ordered :
      rows.Pairwise fun first second => sortKey first ≤ sortKey second)
    {limit : Nat}
    {row other : ρ}
    (kept : other ∈ rows.take limit)
    (member : row ∈ rows)
    (less : sortKey row < sortKey other) :
    row ∈ rows.take limit := by
  obtain ⟨leading, trailing, isPrefix⟩ := List.append_of_mem kept
  have isSplit := List.take_append_drop limit rows
  rw [isPrefix, List.append_assoc, List.cons_append] at isSplit
  generalize rows.drop limit = rest at isSplit
  rw [← isSplit] at ordered member
  rw [isPrefix]
  exact List.mem_append_left _ (mem_leading_of_lt ordered member less)

/-- Selecting keeps exactly the rows that satisfy the condition. -/
@[simp] theorem mem_select
    {table : Table κ ρ key}
    {p : ρ → Bool}
    {row : ρ} :
    row ∈ table.select p ↔
      row ∈ table.rows ∧ p row = true := by
  simp [select, List.mem_filter]

/-- A row of an updated table is the update of an old row. -/
theorem mem_update
    {table : Table κ ρ key}
    {p : ρ → Bool}
    {f : ρ → ρ}
    {keepsKey : ∀ row, key (f row) = key row}
    {row : ρ} :
    row ∈ (table.update p f keepsKey).rows ↔
      ∃ old ∈ table.rows,
        (if p old then f old else old) = row := by
  simp [update]

/-- A selection is read off any wider one. -/
theorem select_of_select
    {table : Table κ ρ key}
    {p q : ρ → Bool}
    (narrower : ∀ row ∈ table.rows, q row = true → p row = true) :
    table.select q = (table.select p).filter q := by
  unfold select
  rw [List.filter_filter]
  apply List.filter_congr
  intro row member
  cases selected : q row with
  | false =>
      rfl
  | true =>
      simp [narrower row member selected]

/-- An update of rows among which `p` is decided alike acts on the selection. -/
theorem select_update
    (table : Table κ ρ key)
    {p q : ρ → Bool}
    {f : ρ → ρ}
    (keepsKey : ∀ row, key (f row) = key row)
    (keeps : ∀ row, p (f row) = p row) :
    (table.update q f keepsKey).select p =
      (table.select p).map fun row => if q row then f row else row := by
  unfold select update
  rw [List.filter_map]
  congr 1
  apply List.filter_congr
  intro row _
  by_cases selected : q row <;> simp [selected, keeps]

/-- An update of rows outside a selection leaves the selection alone. -/
theorem select_update_of_outside
    {table : Table κ ρ key}
    {p q : ρ → Bool}
    {f : ρ → ρ}
    (keepsKey : ∀ row, key (f row) = key row)
    (keeps : ∀ row, p (f row) = p row)
    (outside : ∀ row, q row = true → p row = false) :
    (table.update q f keepsKey).select p = table.select p := by
  rw [select_update table keepsKey keeps]
  have unchanged :
      ∀ row ∈ table.select p, (if q row then f row else row) = id row := by
    intro row member
    have selected := (mem_select.mp member).2
    have untouched : ¬q row = true := by
      intro updated
      rw [outside row updated] at selected
      cases selected
    exact if_neg untouched
  rw [List.map_congr_left unchanged, List.map_id]

/-- Deleting commutes with selecting. -/
theorem select_deleteWhere
    (table : Table κ ρ key)
    (p q : ρ → Bool) :
    (table.deleteWhere q).select p =
      (table.select p).filter fun row => !q row := by
  unfold select deleteWhere
  rw [List.filter_filter, List.filter_filter]
  apply List.filter_congr
  intro row _
  exact Bool.and_comm _ _

/-- Deleting rows outside a selection leaves the selection alone. -/
theorem select_deleteWhere_of_outside
    {table : Table κ ρ key}
    {p q : ρ → Bool}
    (outside : ∀ row, q row = true → p row = false) :
    (table.deleteWhere q).select p = table.select p := by
  rw [select_deleteWhere, List.filter_eq_self]
  intro row member
  have selected := (mem_select.mp member).2
  cases deleted : q row with
  | false =>
      rfl
  | true =>
      rw [outside row deleted] at selected
      cases selected

variable [DecidableEq κ]

/-- The row stored under a key. -/
def get?
    (table : Table κ ρ key)
    (k : κ) : Option ρ :=
  table.rows.find? fun row => key row = k

/-- `INSERT … ON CONFLICT (key) DO UPDATE`: store a row under its own key. -/
def put
    (table : Table κ ρ key)
    (row : ρ) : Table κ ρ key where
  rows := table.rows.filter (fun other => key other ≠ key row) ++ [row]
  keysNodup := by
    rw [List.map_append, List.nodup_append]
    refine ⟨table.keysNodup.sublist (List.filter_sublist.map key),
      by simp, ?_⟩
    intro k member other isRow
    obtain ⟨stored, storedMember, rfl⟩ := List.mem_map.mp member
    simp only [List.map_cons, List.map_nil,
      List.mem_singleton] at isRow
    subst isRow
    simpa using (List.mem_filter.mp storedMember).2

theorem rows_put
    (table : Table κ ρ key)
    (row : ρ) :
    (table.put row).rows =
      table.rows.filter (fun other => key other ≠ key row) ++ [row] :=
  rfl

/-- A row found under a key has that key. -/
theorem key_of_get?
    {table : Table κ ρ key}
    {k : κ}
    {row : ρ}
    (found : table.get? k = some row) :
    key row = k := by
  simpa using List.find?_some found

/-- A row found under a key is a row of the table. -/
theorem mem_of_get?
    {table : Table κ ρ key}
    {k : κ}
    {row : ρ}
    (found : table.get? k = some row) :
    row ∈ table.rows :=
  List.mem_of_find?_eq_some found

/-- In a list with distinct keys, searching a member's key finds the member. -/
private theorem find?_key_of_mem
    {rows : List ρ}
    (keysNodup : (rows.map key).Nodup)
    {row : ρ}
    (member : row ∈ rows) :
    rows.find? (fun other => key other = key row) = some row := by
  induction rows with
  | nil =>
      cases member
  | cons first rest inductionHypothesis =>
      rw [List.map_cons, List.nodup_cons] at keysNodup
      rcases List.mem_cons.mp member with isFirst | inRest
      · subst isFirst
        simp
      · have differs : key first ≠ key row := by
          intro same
          exact keysNodup.1
            (same ▸ List.mem_map_of_mem inRest)
        simp [differs,
          inductionHypothesis keysNodup.2 inRest]

/-- The rows of a table are exactly what `get?` finds under their keys. -/
theorem mem_rows_iff
    {table : Table κ ρ key}
    {row : ρ} :
    row ∈ table.rows ↔ table.get? (key row) = some row :=
  ⟨fun member => find?_key_of_mem table.keysNodup member,
    mem_of_get?⟩

/-- Two rows of a table with one key are the same row. -/
theorem eq_of_key_eq
    {table : Table κ ρ key}
    {first second : ρ}
    (firstMember : first ∈ table.rows)
    (secondMember : second ∈ table.rows)
    (same : key first = key second) :
    first = second := by
  rw [mem_rows_iff] at firstMember secondMember
  rw [same, secondMember] at firstMember
  exact (Option.some.inj firstMember).symm

@[simp] theorem get?_empty
    (k : κ) :
    (empty : Table κ ρ key).get? k = none :=
  rfl

/-- After a `put` the row is found under its key and other keys are untouched. -/
theorem get?_put
    (table : Table κ ρ key)
    (row : ρ)
    (k : κ) :
    (table.put row).get? k =
      if key row = k then some row else table.get? k := by
  unfold get? put
  rw [List.find?_append]
  by_cases same : key row = k
  · have notBefore :
        (table.rows.filter fun other => key other ≠ key row).find?
            (fun other => key other = k) = none := by
      rw [List.find?_eq_none]
      intro other member
      have differs := (List.mem_filter.mp member).2
      simp only [ne_eq, decide_not, Bool.not_eq_eq_eq_not,
        Bool.not_true, decide_eq_false_iff_not] at differs
      simpa [← same] using differs
    rw [notBefore]
    simp [same]
  · have unaffected :
        (table.rows.filter fun other => key other ≠ key row).find?
            (fun other => key other = k) =
          table.rows.find? fun other => key other = k := by
      rw [List.find?_filter]
      congr 1
      funext other
      by_cases found : key other = k
      · have otherNe : key other ≠ key row :=
          fun equal => same (equal.symm.trans found)
        simp [found, Ne.symm same]
      · simp [found]
    rw [unaffected]
    simp [same]

@[simp] theorem get?_put_self
    (table : Table κ ρ key)
    (row : ρ) :
    (table.put row).get? (key row) = some row := by
  simp [get?_put]

/-- `INSERT … ON CONFLICT DO NOTHING`. -/
def insertNew
    (table : Table κ ρ key)
    (row : ρ) : Table κ ρ key :=
  match table.get? (key row) with
  | none => table.put row
  | some _ => table

/-- After an insert a row is found under the inserted key and under the old
ones. -/
theorem isSome_get?_insertNew
    {table : Table κ ρ key}
    {row : ρ}
    {k : κ} :
    ((table.insertNew row).get? k).isSome = true ↔
      key row = k ∨ (table.get? k).isSome = true := by
  unfold insertNew
  cases existing : table.get? (key row) with
  | none =>
      simp only [get?_put]
      by_cases same : key row = k
      · simp [same]
      · simp [same]
  | some found =>
      constructor
      · exact .inr
      · rintro (rfl | isSome)
        · simp only [existing, Option.isSome_some]
        · exact isSome

/-- A row of a table after a `put` is the new row or an old one. -/
theorem mem_put
    {table : Table κ ρ key}
    {row other : ρ} :
    other ∈ (table.put row).rows ↔
      other = row ∨ (other ∈ table.rows ∧ key other ≠ key row) := by
  simp [put, or_comm]

/-- An update acts on the row found under each key. -/
theorem get?_update
    (table : Table κ ρ key)
    (p : ρ → Bool)
    (f : ρ → ρ)
    (keepsKey : ∀ row, key (f row) = key row)
    (k : κ) :
    (table.update p f keepsKey).get? k =
      (table.get? k).map fun row => if p row then f row else row := by
  unfold get? update
  rw [List.find?_map]
  congr 2
  funext row
  by_cases selected : p row <;>
    simp [selected, keepsKey]

/-- Deleting rows hides exactly the deleted ones. -/
theorem get?_deleteWhere
    (table : Table κ ρ key)
    (p : ρ → Bool)
    (k : κ) :
    (table.deleteWhere p).get? k =
      (table.get? k).filter fun row => !p row := by
  cases found : table.get? k with
  | none =>
      unfold get? at found ⊢
      rw [List.find?_eq_none] at found
      simp only [Option.filter_none, List.find?_eq_none]
      intro row member
      exact found row (List.mem_filter.mp member).1
  | some row =>
      have member := mem_of_get? found
      have rowKey := key_of_get? found
      by_cases deleted : p row
      · simp only [Option.filter, deleted, Bool.not_true,
          Bool.false_eq_true, ↓reduceIte]
        unfold get?
        rw [List.find?_eq_none]
        intro other otherMember
        have kept := List.mem_filter.mp otherMember
        intro sameKey
        have otherKey : key other = k := by
          simpa using sameKey
        have same : other = row :=
          eq_of_key_eq kept.1 member (otherKey.trans rowKey.symm)
        simp [same, deleted] at kept
      · have survives : row ∈ (table.deleteWhere p).rows :=
          List.mem_filter.mpr ⟨member, by simp [deleted]⟩
        rw [mem_rows_iff, rowKey] at survives
        simp [survives, Option.filter, deleted]

/-- A row of a selection replaces the selected row of its key. -/
theorem select_put
    (table : Table κ ρ key)
    {p : ρ → Bool}
    {row : ρ}
    (selected : p row = true) :
    (table.put row).select p =
      (table.select p).filter (fun other => key other ≠ key row) ++
        [row] := by
  unfold select put
  rw [List.filter_append, List.filter_filter, List.filter_filter]
  congr 1
  · apply List.filter_congr
    intro other _
    exact Bool.and_comm _ _
  · simp [selected]

/-- A row stored outside a selection, under a key no selected row has, leaves
the selection alone. -/
theorem select_put_of_outside
    {table : Table κ ρ key}
    {p : ρ → Bool}
    {row : ρ}
    (outside : p row = false)
    (fresh :
      ∀ other ∈ table.rows, p other = true → key other ≠ key row) :
    (table.put row).select p = table.select p := by
  unfold select put
  rw [List.filter_append, List.filter_filter]
  have noRow : [row].filter p = [] := by
    simp [outside]
  rw [noRow, List.append_nil]
  apply List.filter_congr
  intro other member
  cases selected : p other with
  | false =>
      rfl
  | true =>
      simp [fresh other member selected]

/-- A key no row outside a selection has is looked up in the selection. -/
theorem get?_of_select
    {table : Table κ ρ key}
    {p : ρ → Bool}
    {k : κ}
    (inside : ∀ row ∈ table.rows, key row = k → p row = true) :
    table.get? k = (table.select p).find? fun row => key row = k := by
  unfold get? select
  rw [← List.head?_filter, ← List.head?_filter, List.filter_filter]
  congr 1
  apply List.filter_congr
  intro row member
  by_cases found : key row = k
  · simp [found, inside row member found]
  · simp [found]

end Table
