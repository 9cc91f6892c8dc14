import Bam.Reader.Convergence
import Bam.Store.Listing

namespace Bam

/-!
# Reading messages page by page

The cursor of `listMessages` has no part of the listing order behind the
message index, and the tags of one packed transaction share their coordinates.
A client reads every row exactly when no page ends between such rows.
-/

/-- A row with all three coordinates. -/
def MessageRow.isPlaced (row : MessageRow) : Bool :=
  row.chainCoord?.isSome

/-- The pages a query is read by end cleanly for the rows with coordinates. -/
def Store.PagesEndCleanly
    (store : Store)
    (query : MessagesQuery)
    (limit : Nat) : Prop :=
  (store.messageListing query).CutsCleanly
    (fun row => row.isPlaced = true) limit none

/-- No multiple of the limit falls between two rows of equal coordinates. -/
def EndsApart
    (rows : List MessageRow)
    (limit : Nat) : Prop :=
  ∀ pages, 0 < pages →
    ∀ last next,
      (rows.take (pages * limit)).getLast? = some last →
      (rows.drop (pages * limit)).head? = some next →
      last.chainCoord? ≠ next.chainCoord?

section Boundary

variable {rows : List MessageRow}
variable {count : Nat}
variable {cursor : Store.ChainCoord}

/-- Rows before the last one of a prefix are not greater than it. -/
theorem not_rowGreater_of_taken
    (ordered :
      rows.Pairwise fun first second => first.listOrder ≤ second.listOrder)
    (placed : ∀ row ∈ rows, row.isPlaced = true)
    {last : MessageRow}
    (isLast : (rows.take count).getLast? = some last)
    (isCursor : last.chainCoord? = some cursor)
    {row : MessageRow}
    (member : row ∈ rows.take count) :
    rowGreater row.columns cursor.columns = false := by
  obtain ⟨coord, isRow⟩ :=
    Option.isSome_iff_exists.mp (placed row (List.mem_of_mem_take member))
  obtain ⟨leading, isLeading⟩ := List.getLast?_eq_some_iff.mp isLast
  have inOrder := ordered.sublist (List.take_sublist count rows)
  rw [isLeading] at member inOrder
  rcases List.mem_append.mp member with earlier | final
  · exact not_rowGreater_of_listed
      ((List.pairwise_append.mp inOrder).2.2 row earlier last
        (List.mem_singleton_self last)) isRow isCursor
  · rw [List.mem_singleton.mp final, columns_of_chainCoord? isCursor]
    exact rowGreater_self cursor.columns

/-- Rows behind a prefix are greater than its last one, if the first of them
has other coordinates. -/
theorem rowGreater_of_dropped
    (ordered :
      rows.Pairwise fun first second => first.listOrder ≤ second.listOrder)
    (placed : ∀ row ∈ rows, row.isPlaced = true)
    (apart :
      ∀ last next,
        (rows.take count).getLast? = some last →
        (rows.drop count).head? = some next →
        last.chainCoord? ≠ next.chainCoord?)
    {last : MessageRow}
    (isLast : (rows.take count).getLast? = some last)
    (isCursor : last.chainCoord? = some cursor)
    {row : MessageRow}
    (member : row ∈ rows.drop count) :
    rowGreater row.columns cursor.columns = true := by
  have halves :
      (rows.take count ++ rows.drop count).Pairwise
        fun first second => first.listOrder ≤ second.listOrder := by
    rw [List.take_append_drop]
    exact ordered
  obtain ⟨-, trailing, across⟩ := List.pairwise_append.mp halves
  obtain ⟨next, rest, isDrop⟩ :=
    List.exists_cons_of_ne_nil (List.ne_nil_of_mem member)
  have nextMember : next ∈ rows.drop count :=
    isDrop ▸ List.mem_cons_self
  obtain ⟨coord, isRow⟩ :=
    Option.isSome_iff_exists.mp (placed row (List.mem_of_mem_drop member))
  obtain ⟨nextCoord, isNext⟩ :=
    Option.isSome_iff_exists.mp
      (placed next (List.mem_of_mem_drop nextMember))
  have differs : cursor ≠ nextCoord := by
    rintro rfl
    exact apart last next isLast (by rw [isDrop, List.head?_cons])
      (isCursor.trans isNext.symm)
  have nextGreater : rowGreater next.columns cursor.columns = true :=
    rowGreater_of_listed
      (across last (List.mem_of_getLast? isLast) next nextMember)
      isCursor isNext differs
  rw [isDrop] at member trailing
  rcases List.mem_cons.mp member with rfl | later
  · exact nextGreater
  · rw [columns_of_chainCoord? isNext] at nextGreater
    by_cases same : nextCoord = coord
    · rw [columns_of_chainCoord? isRow, ← same]
      exact nextGreater
    · exact rowGreater_trans nextGreater
        (rowGreater_of_listed ((List.pairwise_cons.mp trailing).1 row later)
          isNext isRow same)

end Boundary

section Listing

variable {store : Store}
variable {query : MessagesQuery}

/-- A listing of rows with coordinates cuts cleanly exactly between rows of
different coordinates. -/
theorem cutsAt_iff_apart
    {count : Nat}
    (placed :
      ∀ row ∈ store.listMessages query.unpaged, row.isPlaced = true) :
    (store.messageListing query).CutsAt count ↔
      ∀ last next,
        ((store.listMessages query.unpaged).take count).getLast? =
            some last →
        ((store.listMessages query.unpaged).drop count).head? =
            some next →
        last.chainCoord? ≠ next.chainCoord? := by
  have ordered :
      (store.listMessages query.unpaged).Pairwise fun first second =>
        first.listOrder ≤ second.listOrder :=
    Table.orderBy_ordered _ _
  constructor
  · intro cuts last next isLast isNext same
    obtain ⟨coord, isCoord⟩ :=
      Option.isSome_iff_exists.mp
        (placed last (List.mem_of_mem_take (List.mem_of_getLast? isLast)))
    have isTaken :
        ((store.listMessages query.unpaged).take count).getLast?.bind
            MessageRow.chainCoord? = some coord := by
      rw [isLast, Option.bind_some, isCoord]
    have greater : rowGreater next.columns coord.columns = true :=
      (cuts coord isTaken).2 next (List.mem_of_mem_head? isNext)
    rw [columns_of_chainCoord? (same.symm.trans isCoord),
      rowGreater_self] at greater
    cases greater
  · intro apart cursor isTaken
    obtain ⟨last, isLast, isCursor⟩ := Option.bind_eq_some_iff.mp isTaken
    exact ⟨fun row member =>
        not_rowGreater_of_taken ordered placed isLast isCursor member,
      fun row member =>
        rowGreater_of_dropped ordered placed apart isLast isCursor member⟩

/-- Over rows with coordinates, the pages end cleanly exactly when no multiple
of the limit falls between rows of equal coordinates. -/
theorem pagesEndCleanly_iff_apart
    {limit : Nat}
    (positive : 0 < limit)
    (placed :
      ∀ row ∈ store.listMessages query.unpaged, row.isPlaced = true) :
    store.PagesEndCleanly query limit ↔
      EndsApart (store.listMessages query.unpaged) limit := by
  have start :
      (store.messageListing query).ReadTo (0 * limit) none := by
    rw [Nat.zero_mul]
    exact Pagination.Listing.readTo_start
  rw [Store.PagesEndCleanly,
    start.cutsCleanly_iff positive placed placed]
  exact forall_congr' fun pages => imp_congr_right fun _ =>
    cutsAt_iff_apart placed

end Listing

/-- A client that reads messages page by page comes to an end.  It reads every
row with coordinates once and in order exactly when the pages end cleanly,
which for rows with coordinates is that no page ends between rows of equal
ones. -/
theorem messages_paginate_iff
    {limit fuel : Nat}
    (store : Store)
    (query : MessagesQuery)
    (positive : 0 < limit)
    (enough : (store.listMessages query.unpaged).length < fuel) :
    ∃ listed,
      store.followMessages query limit fuel = some (.ok listed) ∧
        (listed.filter MessageRow.isPlaced =
            (store.listMessages query.unpaged).filter
              MessageRow.isPlaced ↔
          store.PagesEndCleanly query limit) ∧
        ((∀ row ∈ store.listMessages query.unpaged,
            row.isPlaced = true) →
          (store.PagesEndCleanly query limit ↔
            EndsApart (store.listMessages query.unpaged) limit)) := by
  obtain ⟨listed, enumerated⟩ :=
    @Pagination.Listing.enumerate_ends _ _ (store.messageListing query)
      limit fuel none enough
  refine ⟨listed, ?_, ?_, pagesEndCleanly_iff_apart positive⟩
  · exact
      (Pagination.Listing.follow_eq_enumerate
        (fun cursor =>
          congrArg Except.ok (listMessages_paged store query limit cursor))
        fuel none).trans
      (congrArg (Option.map Except.ok) enumerated)
  · constructor
    · intro complete
      exact Pagination.Listing.cutsCleanly_of_enumerated enumerated
        (complete ▸ List.Perm.refl _)
    · intro clean
      exact clean.enumerated enumerated

/-- The batch of another tag in the transaction of `sampleBatch 1`. -/
def otherTagBatch : ProcessBatchOptions :=
  { sampleBatch 1 [4] with
    event := { (sampleBatch 1 [4]).event with contentTag := 6 }
    decodeAnswer := fun _ =>
      some ([{ sender := 8, nonce := 0, contents := [4] }], [1]) }

/-- The query for all confirmed rows. -/
def confirmedQuery : MessagesQuery where
  contentTag := none
  sender := none
  status := some .confirmed
  batchRef := none
  sinceBlock := none
  cursor := none
  limit := none

/-- A Reader has processed two tags of one transaction; a client that reads one
row a page never sees the second tag's. -/
theorem page_between_tags_skips_row :
    (Runs.exec? (readerStep sampleLibraries) Store.empty
        [.processBatch (sampleBatch 1 [3]),
          .processBatch otherTagBatch]).map
        (fun store =>
          ((store.listMessages confirmedQuery.unpaged).map
              MessageRow.chainCoord?,
            (store.followMessages confirmedQuery 1 3).map fun result =>
              (result.toOption.getD []).map MessageRow.key)) =
      some ([some ⟨100, 0, 0⟩, some ⟨100, 0, 0⟩], some [(7, 0)]) := by
  decide +kernel

/-- The store of the two tags, of which no page of two rows ends between. -/
def twoTagStore : Store :=
  ((Runs.exec? (readerStep sampleLibraries) Store.empty
    [.processBatch (sampleBatch 1 [3]),
      .processBatch otherTagBatch]).getD Store.empty)

/-- Paging through the rows of the two tags, two a page. -/
theorem messages_paginate_iff_two_tags :
    ∃ listed,
      twoTagStore.followMessages confirmedQuery 2 3 =
          some (.ok listed) ∧
        (listed.filter MessageRow.isPlaced =
            (twoTagStore.listMessages confirmedQuery.unpaged).filter
              MessageRow.isPlaced ↔
          twoTagStore.PagesEndCleanly confirmedQuery 2) ∧
        ((∀ row ∈ twoTagStore.listMessages confirmedQuery.unpaged,
            row.isPlaced = true) →
          (twoTagStore.PagesEndCleanly confirmedQuery 2 ↔
            EndsApart (twoTagStore.listMessages confirmedQuery.unpaged)
              2)) :=
  messages_paginate_iff twoTagStore confirmedQuery Nat.two_pos
    (by decide +kernel)

end Bam
