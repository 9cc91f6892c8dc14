import Bam.Lib.ExceptLoops
import Bam.Store.Listing
import Bam.Store.Nonces

namespace Bam

/-!
# The Poster's read surfaces

The next nonce of a sender, and the pending pool: by tag, or over all tags in
the order of ingest times.  The sequence number a client resumes after counts
per tag.
-/

/-- `getNextNonce`: one above the tracker, or zero for a sender it has no row
of. -/
def getNextNonce
    (store : Store)
    (sender : Address) : Nat :=
  match store.getNonce sender with
  | none => 0
  | some row => row.lastNonce + 1

structure Pending where
  sender : Address
  nonce : Nat
  contentTag : Bytes32
  contents : Bytes
  signature : Bytes
  messageHash : Bytes32
  ingestedAt : Int
  ingestSeq : Nat
  deriving Repr, DecidableEq

structure MessageCursor where
  ingestSeq : Nat
  contentTag : Bytes32
  deriving Repr, DecidableEq

structure PendingQuery where
  contentTag : Option Bytes32
  since : Option MessageCursor
  limit : Option Nat
  deriving Repr, DecidableEq

/-- `mapRow`. -/
def StoreTxnPendingRow.toPending (row : StoreTxnPendingRow) : Pending where
  sender := row.sender
  nonce := row.nonce
  contentTag := row.contentTag
  contents := row.contents
  signature := row.signature
  messageHash := row.messageHash
  ingestedAt := row.ingestedAt
  ingestSeq := row.ingestSeq

/-- The condition `ingest_seq > sinceSeq`, where there is one. -/
def seqAfter
    (sinceSeq : Option Nat)
    (row : MessageRow) : Bool :=
  sinceSeq.all fun since => row.ingestSeq.any fun seq => since < seq

/-- The `ORDER BY` of `listPendingAll`. -/
def MessageRow.poolOrder (row : MessageRow) : List Int :=
  Table.ascNullsLast row.ingestedAt ++
    Table.ascNullsLast (row.ingestSeq.map Int.ofNat)

namespace Store

/-- `listPendingByTag` with its limit and its sequence number. -/
def listPendingByTagSince
    (store : Store)
    (tag : Bytes32)
    (limit sinceSeq : Option Nat) :
    Except StoreError (List StoreTxnPendingRow) :=
  (limited limit
    (Table.orderBy
      (fun row => Table.ascNullsLast (row.ingestSeq.map Int.ofNat))
      (store.messages.select fun row =>
        row.contentTag = tag && row.status = .pending &&
          seqAfter sinceSeq row))).mapM mapPending

/-- `listPendingAll`. -/
def listPendingAll
    (store : Store)
    (limit sinceSeq : Option Nat) :
    Except StoreError (List StoreTxnPendingRow) :=
  (limited limit
    (Table.orderBy MessageRow.poolOrder
      (store.messages.select fun row =>
        row.status = .pending && seqAfter sinceSeq row))).mapM mapPending

end Store

/-- `listPending`: only the sequence number of the cursor is read. -/
def listPending
    (store : Store)
    (query : PendingQuery) : Except StoreError (List Pending) :=
  (match query.contentTag with
    | some contentTag =>
        store.listPendingByTagSince contentTag query.limit
          (query.since.map MessageCursor.ingestSeq)
    | none =>
        store.listPendingAll query.limit
          (query.since.map MessageCursor.ingestSeq)).map
    (List.map StoreTxnPendingRow.toPending)

/-- The cursor a client takes from a row. -/
def Pending.cursor (pending : Pending) : MessageCursor where
  ingestSeq := pending.ingestSeq
  contentTag := pending.contentTag

/-- The query over all tags for a page. -/
def pendingPage
    (limit : Option Nat)
    (since : Option MessageCursor) : PendingQuery where
  contentTag := none
  since := since
  limit := limit

/-- A client that reads the pool over all tags page by page. -/
def followPending
    (store : Store)
    (limit fuel : Nat) : Option (Except StoreError (List Pending)) :=
  Pagination.follow
    (fun since => listPending store (pendingPage (some limit) since))
    (fun pending => some pending.cursor) fuel none

/-- The pending rows in the order of `listPendingAll`. -/
def Store.pool (store : Store) : List MessageRow :=
  Table.orderBy MessageRow.poolOrder
    (store.messages.select fun row => row.status = .pending)

/-- Every page closes with the highest sequence number read so far, and every
later row has a higher one. -/
def ClosesHighest
    (rows : List Pending)
    (limit : Nat) : Prop :=
  ∀ pages, 0 < pages →
    ∀ last, (rows.take (pages * limit)).getLast? = some last →
      (∀ row ∈ rows.take (pages * limit),
        row.ingestSeq ≤ last.ingestSeq) ∧
      ∀ row ∈ rows.drop (pages * limit), last.ingestSeq < row.ingestSeq

section Pool

variable {store : Store}

/-- A page over all tags is a page of the pool behind the cursor. -/
theorem listPendingAll_eq
    (limit sinceSeq : Option Nat) :
    store.listPendingAll limit sinceSeq =
      (limited limit (store.pool.filter (seqAfter sinceSeq))).mapM
        mapPending := by
  rw [Store.listPendingAll, Store.pool, Table.filter_orderBy, Table.select,
    Table.select, List.filter_filter]
  simp only [Bool.and_comm]

/-- What the pool lists. -/
def Pending.Of
    (pending : Pending)
    (row : MessageRow) : Prop :=
  ∃ mapped, mapPending row = .ok mapped ∧ mapped.toPending = pending

theorem Pending.Of.seq
    {pending : Pending}
    {row : MessageRow}
    (isOf : pending.Of row) :
    row.ingestSeq = some pending.ingestSeq := by
  obtain ⟨mapped, isMapped, rfl⟩ := isOf
  exact (mapPending_ok isMapped).2.2.2.2.2.2.2.symm

theorem Pending.Of.key
    {pending : Pending}
    {row : MessageRow}
    (isOf : pending.Of row) :
    (pending.sender, pending.nonce) = row.key := by
  obtain ⟨mapped, isMapped, rfl⟩ := isOf
  obtain ⟨-, sameSender, sameNonce, -⟩ := mapPending_ok isMapped
  exact Prod.ext sameSender sameNonce

/-- Mapping the images of a loop. -/
theorem forall₂_of_iff
    {rows : List MessageRow}
    {listed : List Pending} :
    List.Forall₂ (fun row pending => pending.Of row) rows listed ↔
      ∃ mapped,
        rows.mapM mapPending = .ok mapped ∧
          mapped.map StoreTxnPendingRow.toPending = listed := by
  simp only [ExceptLoops.mapM_eq_ok_iff]
  constructor
  · intro related
    induction related with
    | nil =>
        exact ⟨[], .nil, rfl⟩
    | cons isOf _ inductionHypothesis =>
        obtain ⟨mapped, isMapped, rfl⟩ := isOf
        obtain ⟨rest, isRest, rfl⟩ := inductionHypothesis
        exact ⟨mapped :: rest, .cons isMapped isRest, rfl⟩
  · rintro ⟨mapped, related, rfl⟩
    induction related with
    | nil =>
        exact .nil
    | cons isMapped _ inductionHypothesis =>
        exact .cons ⟨_, isMapped, rfl⟩ inductionHypothesis

/-- A page lists what its message rows map to. -/
theorem listPending_eq_ok_iff
    {limit : Option Nat}
    {since : Option MessageCursor}
    {listed : List Pending} :
    listPending store (pendingPage limit since) = .ok listed ↔
      List.Forall₂ (fun row pending => pending.Of row)
        (limited limit
          (store.pool.filter
            (seqAfter (since.map MessageCursor.ingestSeq))))
        listed := by
  rw [forall₂_of_iff, listPending, pendingPage, listPendingAll_eq]
  cases (limited limit
      (store.pool.filter
        (seqAfter (since.map MessageCursor.ingestSeq)))).mapM
      mapPending with
  | error error =>
      constructor
      · intro isOk
        cases isOk
      · rintro ⟨mapped, isMapped, -⟩
        cases isMapped
  | ok mapped =>
      constructor
      · intro isOk
        cases isOk
        exact ⟨mapped, rfl, rfl⟩
      · rintro ⟨other, isOther, rfl⟩
        cases isOther
        rfl

theorem exists_of_listed
    {rows : List MessageRow}
    {listed : List Pending}
    {pending : Pending}
    (related :
      List.Forall₂ (fun row pending => pending.Of row) rows listed)
    (member : pending ∈ listed) :
    ∃ row ∈ rows, pending.Of row := by
  induction related with
  | nil =>
      cases member
  | cons isOf _ inductionHypothesis =>
      rcases List.mem_cons.mp member with rfl | later
      · exact ⟨_, List.mem_cons_self, isOf⟩
      · obtain ⟨row, isRow, isOf⟩ := inductionHypothesis later
        exact ⟨row, List.mem_cons_of_mem _ isRow, isOf⟩

theorem keys_of_listed
    {rows : List MessageRow}
    {listed : List Pending}
    (related :
      List.Forall₂ (fun row pending => pending.Of row) rows listed) :
    listed.map (fun pending => (pending.sender, pending.nonce)) =
      rows.map MessageRow.key := by
  induction related with
  | nil =>
      rfl
  | cons isOf _ inductionHypothesis =>
      rw [List.map_cons, List.map_cons, isOf.key, inductionHypothesis]

/-- Without a cursor every row is listed. -/
theorem filter_seqAfter_none
    (rows : List MessageRow) :
    rows.filter (seqAfter none) = rows :=
  List.filter_eq_self.mpr fun _ _ => rfl

/-- The rows of the whole pool are distinct. -/
theorem pending_nodup
    {all : List Pending}
    (listed : listPending store (pendingPage none none) = .ok all) :
    all.Nodup := by
  have sameKeys := keys_of_listed (listPending_eq_ok_iff.mp listed)
  rw [Option.map_none, filter_seqAfter_none] at sameKeys
  have keys : (store.pool.map MessageRow.key).Nodup :=
    ((Table.orderBy_perm _ _).map MessageRow.key).nodup_iff.mpr
      (store.messages.keysNodup.sublist
        (List.filter_sublist.map MessageRow.key))
  exact List.Nodup.of_map _ (sameKeys ▸ keys)

/-- The pool over all tags, with sequence numbers for cursors. -/
def pendingListing
    (all : List Pending)
    (distinct : all.Nodup) :
    Pagination.Listing Pending MessageCursor where
  rows := all
  cursorOf := fun pending => some pending.cursor
  behind := fun since pending => since.ingestSeq < pending.ingestSeq
  distinct := distinct
  past := by
    intro row cursor isCursor
    cases isCursor
    exact decide_eq_false (Nat.lt_irrefl _)
  onward := by
    intro row cursor first other isCursor isBehind isLater
    cases isCursor
    exact decide_eq_true
      ((of_decide_eq_true isBehind).trans (of_decide_eq_true isLater))

/-- A page of a pool that can be listed is a page of its listing. -/
theorem listPending_page
    {all : List Pending}
    (listed : listPending store (pendingPage none none) = .ok all)
    (limit : Nat)
    (since : Option MessageCursor) :
    listPending store (pendingPage (some limit) since) =
      .ok ((pendingListing all (pending_nodup listed)).page limit
        since) := by
  have related := listPending_eq_ok_iff.mp listed
  rw [Option.map_none, filter_seqAfter_none] at related
  rw [listPending_eq_ok_iff]
  apply List.forall₂_take
  cases since with
  | none =>
      rw [Option.map_none, filter_seqAfter_none]
      exact related
  | some cursor =>
      refine List.rel_filter ?_ related
      intro row pending isOf
      simp [seqAfter, isOf.seq, pendingListing]

/-- Every answered page moves the client's sequence number on. -/
theorem pending_shrinks
    {limit : Nat}
    {since : Option MessageCursor}
    {page : List Pending}
    {cursor : MessageCursor}
    (answered :
      listPending store (pendingPage (some limit) since) = .ok page)
    (isNext :
      page.getLast?.bind (fun pending => some pending.cursor) =
        some cursor) :
    (store.pool.filter (seqAfter (some cursor.ingestSeq))).length <
      (store.pool.filter
        (seqAfter (since.map MessageCursor.ingestSeq))).length := by
  obtain ⟨last, isLast, isCursor⟩ := Option.bind_eq_some_iff.mp isNext
  cases isCursor
  obtain ⟨row, inPage, isOf⟩ :=
    exists_of_listed (listPending_eq_ok_iff.mp answered)
      (List.mem_of_getLast? isLast)
  obtain ⟨inPool, isAfter⟩ :=
    List.mem_filter.mp (List.mem_of_mem_take inPage)
  have onward :
      ∀ other, seqAfter (some last.cursor.ingestSeq) other = true →
        seqAfter (since.map MessageCursor.ingestSeq) other = true := by
    intro other isLater
    cases since with
    | none =>
        rfl
    | some cursor =>
        simp only [seqAfter, Option.map_some, Option.all_some,
          Option.any_eq_true, decide_eq_true_eq, isOf.seq] at *
        obtain ⟨seq, isSeq, less⟩ := isLater
        obtain ⟨between, isBetween, before⟩ := isAfter
        cases isBetween
        exact ⟨seq, isSeq, before.trans less⟩
  have within :
      store.pool.filter (seqAfter (some last.cursor.ingestSeq)) =
        (store.pool.filter
          (seqAfter (since.map MessageCursor.ingestSeq))).filter
          (seqAfter (some last.cursor.ingestSeq)) := by
    rw [List.filter_filter]
    apply List.filter_congr
    intro other _
    cases isLater : seqAfter (some last.cursor.ingestSeq) other with
    | false =>
        rfl
    | true =>
        rw [onward other isLater]
        rfl
  rw [within]
  apply List.length_filter_lt_length_iff_exists.mpr
  refine ⟨row, List.mem_filter.mpr ⟨inPool, isAfter⟩, ?_⟩
  simp [seqAfter, isOf.seq, Pending.cursor]

/-- A listing of the pool cuts cleanly where its last row has the highest
sequence number so far and every later row a higher one. -/
theorem cutsAt_pending_iff
    {all : List Pending}
    {distinct : all.Nodup}
    {count : Nat} :
    (pendingListing all distinct).CutsAt count ↔
      ∀ last, (all.take count).getLast? = some last →
        (∀ row ∈ all.take count, row.ingestSeq ≤ last.ingestSeq) ∧
        ∀ row ∈ all.drop count, last.ingestSeq < row.ingestSeq := by
  have isBehind (last row : Pending) :
      (pendingListing all distinct).behind last.cursor row =
        decide (last.ingestSeq < row.ingestSeq) :=
    rfl
  constructor
  · intro cuts last isLast
    obtain ⟨read, unread⟩ :=
      cuts last.cursor (congrArg (Option.bind · _) isLast)
    refine ⟨fun row member => ?_, fun row member => ?_⟩
    · have notBehind := read row member
      rw [isBehind, decide_eq_false_iff_not] at notBehind
      exact Nat.le_of_not_lt notBehind
    · have later := unread row member
      rw [isBehind, decide_eq_true_eq] at later
      exact later
  · intro closes cursor isTaken
    obtain ⟨last, isLast, isCursor⟩ := Option.bind_eq_some_iff.mp isTaken
    cases isCursor
    obtain ⟨read, unread⟩ := closes last isLast
    refine ⟨fun row member => ?_, fun row member => ?_⟩
    · exact (isBehind last row).trans
        (decide_eq_false (Nat.not_lt.mpr (read row member)))
    · exact (isBehind last row).trans
        (decide_eq_true (unread row member))

/-- A pool that can be listed is read row by row exactly once if and only if
every page closes with the highest sequence number so far. -/
theorem enumerate_pending_iff
    {all listed : List Pending}
    {distinct : all.Nodup}
    {limit fuel : Nat}
    (positive : 0 < limit)
    (enumerated :
      (pendingListing all distinct).enumerate limit fuel none =
        some listed) :
    listed.Perm all ↔ ClosesHighest all limit := by
  have start :
      (pendingListing all distinct).ReadTo (0 * limit) none := by
    rw [Nat.zero_mul]
    exact Pagination.Listing.readTo_start
  have closes :
      (pendingListing all distinct).CutsCleanly (fun _ => true = true)
          limit none ↔
        ClosesHighest all limit :=
    (start.cutsCleanly_iff positive (fun _ _ => rfl)
      (fun _ _ => rfl)).trans
    (forall_congr' fun _ => imp_congr_right fun _ => cutsAt_pending_iff)
  refine Iff.trans ?_ closes
  have everything (rows : List Pending) :
      rows.filter (fun _ => true) = rows :=
    List.filter_eq_self.mpr fun _ _ => rfl
  constructor
  · intro once
    apply Pagination.Listing.cutsCleanly_of_enumerated enumerated
    rw [everything, everything]
    exact once
  · intro clean
    have complete := clean.enumerated enumerated
    rw [everything, everything] at complete
    exact complete ▸ List.Perm.refl _

end Pool

/-- A client that reads the pool over all tags page by page comes to an end.
It reads every pending row exactly once if and only if the pool can be listed
and every page closes with the highest sequence number so far. -/
theorem pending_paginate_iff
    {limit fuel : Nat}
    (store : Store)
    (positive : 0 < limit)
    (enough : store.pool.length < fuel) :
    ∃ result,
      followPending store limit fuel = some result ∧
        ((∃ listed all,
            result = .ok listed ∧
            listPending store (pendingPage none none) = .ok all ∧
            listed.Perm all) ↔
          ∃ all,
            listPending store (pendingPage none none) = .ok all ∧
            ClosesHighest all limit) := by
  cases whole : listPending store (pendingPage none none) with
  | error error =>
      obtain ⟨result, ends⟩ :=
        @Pagination.follow_ends _ _ _
          (fun since => listPending store (pendingPage (some limit) since))
          (fun pending => some pending.cursor)
          (fun since =>
            (store.pool.filter
              (seqAfter (since.map MessageCursor.ingestSeq))).length)
          pending_shrinks fuel none
          (by rw [Option.map_none, filter_seqAfter_none]; exact enough)
      refine ⟨result, ends, ?_, ?_⟩
      · rintro ⟨listed, all, -, isAll, -⟩
        cases isAll
      · rintro ⟨all, isAll, -⟩
        cases isAll
  | ok all =>
      have sameLength : store.pool.length = all.length := by
        have related := (listPending_eq_ok_iff.mp whole).length_eq
        rw [Option.map_none, filter_seqAfter_none] at related
        exact related
      obtain ⟨listed, enumerated⟩ :=
        @Pagination.Listing.enumerate_ends _ _
          (pendingListing all (pending_nodup whole)) limit fuel none
          (sameLength ▸ enough)
      refine ⟨.ok listed, ?_, ?_⟩
      · exact
          (Pagination.Listing.follow_eq_enumerate (listPending_page whole limit)
            fuel none).trans
          (congrArg (Option.map Except.ok) enumerated)
      · have exactly := enumerate_pending_iff positive enumerated
        constructor
        · rintro ⟨other, others, isOther, isAll, once⟩
          cases isOther
          cases isAll
          exact ⟨all, rfl, exactly.mp once⟩
        · rintro ⟨others, isAll, closes⟩
          cases isAll
          exact ⟨listed, all, rfl, rfl, exactly.mpr closes⟩

/-- A message of the sampled pool. -/
def pooledRow
    (contentTag : Bytes32)
    (nonce ingestSeq : Nat)
    (ingestedAt : Int) : MessageRow :=
  StoreTxnPendingRow.toMessageRow {
    contentTag := contentTag
    sender := 7
    nonce := nonce
    contents := [3]
    signature := List.replicate 65 0
    messageHash := 0
    chainId := 1
    ingestedAt := ingestedAt
    ingestSeq := ingestSeq }

/-- Two messages of one tag are ingested and then one of another tag, whose
sequence starts anew. -/
def twoTagPool : Store :=
  ((Store.empty.putMessage (pooledRow 5 0 1 100)).putMessage
    (pooledRow 5 1 2 101)).putMessage (pooledRow 6 2 1 102)

/-- A client that reads one row a page never sees the other tag. -/
theorem second_tag_never_listed :
    ((listPending twoTagPool (pendingPage none none)).toOption.map
        (List.map fun pending => (pending.contentTag, pending.nonce)),
      (followPending twoTagPool 1 4).map fun result =>
        result.toOption.map
          (List.map fun pending => (pending.contentTag, pending.nonce))) =
      (some [(5, 0), (5, 1), (6, 2)], some (some [(5, 0), (5, 1)])) := by
  decide +kernel

/-- The sampled pool read in pages of one row. -/
theorem pending_paginate_iff_twoTagPool :
    ∃ result,
      followPending twoTagPool 1 4 = some result ∧
        ((∃ listed all,
            result = .ok listed ∧
            listPending twoTagPool (pendingPage none none) = .ok all ∧
            listed.Perm all) ↔
          ∃ all,
            listPending twoTagPool (pendingPage none none) = .ok all ∧
            ClosesHighest all 1) :=
  pending_paginate_iff twoTagPool Nat.one_pos (by decide +kernel)

end Bam
