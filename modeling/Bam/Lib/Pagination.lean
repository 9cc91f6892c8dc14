import Mathlib.Data.List.Nodup
import Mathlib.Data.List.Perm.Basic

namespace Pagination

/-!
# Following a cursor

A client reads a listing page by page: each query returns the first rows behind
the cursor the client took from the last row of the page before.  The listing
is complete exactly when every page end cuts cleanly between the rows already
read and the rows still to come.
-/

variable {ρ σ κ ε : Type*}

/-- The pages a client reads, one after the other: it stops at an empty page or
at a row it can take no cursor from, and an error ends it.  `none` where the
fuel runs out. -/
def follow
    (query : Option κ → Except ε (List ρ))
    (cursorOf : ρ → Option κ) :
    Nat → Option κ → Option (Except ε (List ρ))
  | 0, _ => none
  | fuel + 1, cursor? =>
      match query cursor? with
      | .error error => some (.error error)
      | .ok page =>
          match page.getLast?.bind cursorOf with
          | none => some (.ok page)
          | some cursor =>
              (follow query cursorOf fuel (some cursor)).map
                fun rest => rest.map (page ++ ·)

/-- A client that moves down a measure at every page comes to an end. -/
theorem follow_ends
    {query : Option κ → Except ε (List ρ)}
    {cursorOf : ρ → Option κ}
    {measure : Option κ → Nat}
    (decreases :
      ∀ {cursor? page cursor},
        query cursor? = .ok page →
        page.getLast?.bind cursorOf = some cursor →
        measure (some cursor) < measure cursor?)
    {fuel : Nat}
    {cursor? : Option κ}
    (enough : measure cursor? < fuel) :
    ∃ result, follow query cursorOf fuel cursor? = some result := by
  induction fuel generalizing cursor? with
  | zero =>
      exact absurd enough (Nat.not_lt_zero _)
  | succ fuel inductionHypothesis =>
      rw [follow]
      cases asked : query cursor? with
      | error error =>
          exact ⟨_, rfl⟩
      | ok page =>
          dsimp only
          cases isLast : page.getLast?.bind cursorOf with
          | none =>
              exact ⟨_, rfl⟩
          | some cursor =>
              obtain ⟨rest, isRest⟩ :=
                inductionHypothesis
                  (Nat.lt_of_lt_of_le (decreases asked isLast)
                    (Nat.le_of_lt_succ enough))
              exact ⟨_, congrArg (Option.map _) isRest⟩

/-- An ordered list of rows, the cursor a client takes from a row, and the rows
behind a cursor. -/
structure Listing (ρ κ : Type*) where
  rows : List ρ
  cursorOf : ρ → Option κ
  behind : κ → ρ → Bool
  distinct : rows.Nodup
  /-- A row is not behind its own cursor. -/
  past : ∀ {row cursor}, cursorOf row = some cursor →
    behind cursor row = false
  /-- What is behind a later cursor is behind an earlier one. -/
  onward : ∀ {row cursor first other}, cursorOf row = some cursor →
    behind first row = true → behind cursor other = true →
    behind first other = true

namespace Listing

variable (listing : Listing ρ κ)

/-- The rows behind a cursor; all rows, without one. -/
def remaining : Option κ → List ρ
  | none => listing.rows
  | some cursor => listing.rows.filter (listing.behind cursor)

/-- A page behind a cursor. -/
def page
    (limit : Nat)
    (cursor? : Option κ) : List ρ :=
  (listing.remaining cursor?).take limit

/-- The rows a page leaves out. -/
def beyond
    (limit : Nat)
    (cursor? : Option κ) : List ρ :=
  (listing.remaining cursor?).drop limit

/-- The cursor a client takes from a page. -/
def nextCursor
    (limit : Nat)
    (cursor? : Option κ) : Option κ :=
  (listing.page limit cursor?).getLast?.bind listing.cursorOf

/-- What a client of the listing reads from a cursor on. -/
def enumerate
    (limit : Nat) : Nat → Option κ → Option (List ρ)
  | 0, _ => none
  | fuel + 1, cursor? =>
      match listing.nextCursor limit cursor? with
      | none => some (listing.page limit cursor?)
      | some cursor =>
          (enumerate limit fuel (some cursor)).map
            (listing.page limit cursor? ++ ·)

/-- The pages from a cursor on end cleanly for the wanted rows: a cursor taken
from a page has none of the page's rows behind it and all rows beyond the page,
and where no cursor can be taken no row is left. -/
inductive CutsCleanly
    (wanted : ρ → Prop)
    (limit : Nat) : Option κ → Prop where
  | ended
      {cursor? : Option κ}
      (noCursor : listing.nextCursor limit cursor? = none)
      (nothing : ∀ row ∈ listing.beyond limit cursor?, ¬ wanted row) :
      CutsCleanly wanted limit cursor?
  | next
      {cursor? : Option κ}
      {cursor : κ}
      (isNext : listing.nextCursor limit cursor? = some cursor)
      (read : ∀ row ∈ listing.page limit cursor?, wanted row →
        listing.behind cursor row = false)
      (unread : ∀ row ∈ listing.beyond limit cursor?, wanted row →
        listing.behind cursor row = true)
      (later : CutsCleanly wanted limit (some cursor)) :
      CutsCleanly wanted limit cursor?

variable {listing}

theorem page_append_beyond
    (limit : Nat)
    (cursor? : Option κ) :
    listing.page limit cursor? ++ listing.beyond limit cursor? =
      listing.remaining cursor? :=
  List.take_append_drop limit _

theorem remaining_sublist
    (cursor? : Option κ) :
    (listing.remaining cursor?).Sublist listing.rows := by
  cases cursor? with
  | none =>
      exact List.Sublist.refl _
  | some cursor =>
      exact List.filter_sublist

theorem remaining_nodup
    (cursor? : Option κ) :
    (listing.remaining cursor?).Nodup :=
  listing.distinct.sublist (remaining_sublist cursor?)

/-- The row a client takes its cursor from. -/
theorem exists_of_nextCursor
    {limit : Nat}
    {cursor? : Option κ}
    {cursor : κ}
    (isNext : listing.nextCursor limit cursor? = some cursor) :
    ∃ row,
      (listing.page limit cursor?).getLast? = some row ∧
        row ∈ listing.page limit cursor? ∧
        row ∈ listing.remaining cursor? ∧
        listing.cursorOf row = some cursor := by
  obtain ⟨row, isLast, isCursor⟩ := Option.bind_eq_some_iff.mp isNext
  have inPage := List.mem_of_getLast? isLast
  exact ⟨row, isLast, inPage, List.mem_of_mem_take inPage, isCursor⟩

/-- The rows behind the next cursor are rows behind the one before. -/
theorem remaining_next
    {limit : Nat}
    {cursor? : Option κ}
    {cursor : κ}
    (isNext : listing.nextCursor limit cursor? = some cursor) :
    listing.remaining (some cursor) =
      (listing.remaining cursor?).filter (listing.behind cursor) := by
  obtain ⟨row, -, -, isRemaining, isCursor⟩ := exists_of_nextCursor isNext
  cases cursor? with
  | none =>
      rfl
  | some first =>
      rw [remaining, remaining, List.filter_filter]
      apply List.filter_congr
      intro other member
      cases behindNext : listing.behind cursor other with
      | false =>
          rfl
      | true =>
          rw [listing.onward isCursor
            (List.mem_filter.mp isRemaining).2 behindNext]
          rfl

/-- Every page shortens what remains. -/
theorem remaining_shrinks
    {limit : Nat}
    {cursor? : Option κ}
    {cursor : κ}
    (isNext : listing.nextCursor limit cursor? = some cursor) :
    (listing.remaining (some cursor)).length <
      (listing.remaining cursor?).length := by
  obtain ⟨row, -, -, isRemaining, isCursor⟩ := exists_of_nextCursor isNext
  rw [remaining_next isNext]
  apply List.length_filter_lt_length_iff_exists.mpr
  exact ⟨row, isRemaining, by simp [listing.past isCursor]⟩

/-- A client whose queries answer the pages of a listing reads the listing. -/
theorem follow_eq_enumerate
    {query : Option κ → Except ε (List ρ)}
    {limit : Nat}
    (answers : ∀ asked, query asked = .ok (listing.page limit asked))
    (fuel : Nat)
    (cursor? : Option κ) :
    follow query listing.cursorOf fuel cursor? =
      (listing.enumerate limit fuel cursor?).map .ok := by
  induction fuel generalizing cursor? with
  | zero =>
      rfl
  | succ fuel inductionHypothesis =>
      rw [follow, answers, enumerate]
      dsimp only
      rw [← nextCursor]
      cases listing.nextCursor limit cursor? with
      | none =>
          rfl
      | some cursor =>
          dsimp only
          rw [inductionHypothesis]
          cases listing.enumerate limit fuel (some cursor) <;> rfl

/-- The client of a listing comes to an end. -/
theorem enumerate_ends
    {limit fuel : Nat}
    {cursor? : Option κ}
    (enough : (listing.remaining cursor?).length < fuel) :
    ∃ listed, listing.enumerate limit fuel cursor? = some listed := by
  induction fuel generalizing cursor? with
  | zero =>
      exact absurd enough (Nat.not_lt_zero _)
  | succ fuel inductionHypothesis =>
      rw [enumerate]
      cases isNext : listing.nextCursor limit cursor? with
      | none =>
          exact ⟨_, rfl⟩
      | some cursor =>
          obtain ⟨rest, isRest⟩ :=
            inductionHypothesis
              (Nat.lt_of_lt_of_le (remaining_shrinks isNext)
                (Nat.le_of_lt_succ enough))
          exact ⟨_, congrArg (Option.map _) isRest⟩

/-- A client reads rows of what remains only. -/
theorem mem_remaining_of_enumerate
    {limit fuel : Nat}
    {cursor? : Option κ}
    {listed : List ρ}
    {row : ρ}
    (enumerated : listing.enumerate limit fuel cursor? = some listed)
    (member : row ∈ listed) :
    row ∈ listing.remaining cursor? := by
  induction fuel generalizing cursor? listed with
  | zero =>
      cases enumerated
  | succ fuel inductionHypothesis =>
      rw [enumerate] at enumerated
      cases isNext : listing.nextCursor limit cursor? with
      | none =>
          rw [isNext] at enumerated
          cases enumerated
          exact List.mem_of_mem_take member
      | some cursor =>
          rw [isNext] at enumerated
          obtain ⟨rest, isRest, rfl⟩ :=
            Option.map_eq_some_iff.mp enumerated
          rcases List.mem_append.mp member with inPage | inRest
          · exact List.mem_of_mem_take inPage
          · have later := inductionHypothesis isRest inRest
            rw [remaining_next isNext] at later
            exact (List.mem_filter.mp later).1

section Complete

variable {wanted : ρ → Bool}
variable {limit fuel : Nat}
variable {cursor? : Option κ}
variable {cursor : κ}
variable {listed : List ρ}

/-- Behind a clean cut are exactly the wanted rows beyond the page. -/
theorem wanted_remaining_next
    (isNext : listing.nextCursor limit cursor? = some cursor)
    (read : ∀ row ∈ listing.page limit cursor?, wanted row →
      listing.behind cursor row = false)
    (unread : ∀ row ∈ listing.beyond limit cursor?, wanted row →
      listing.behind cursor row = true) :
    (listing.remaining (some cursor)).filter wanted =
      (listing.beyond limit cursor?).filter wanted := by
  rw [remaining_next isNext, ← page_append_beyond limit cursor?,
    List.filter_filter, List.filter_append]
  have nothing :
      (listing.page limit cursor?).filter (fun row =>
        wanted row && listing.behind cursor row) = [] := by
    apply List.filter_eq_nil_iff.mpr
    intro row member both
    rw [Bool.and_eq_true] at both
    rw [read row member both.1] at both
    cases both.2
  rw [nothing, List.nil_append]
  apply List.filter_congr
  intro row member
  cases isWanted : wanted row with
  | false =>
      rfl
  | true =>
      rw [unread row member isWanted]
      rfl

/-- Over clean cuts a client reads every wanted row once, in order. -/
theorem CutsCleanly.enumerated
    (clean :
      listing.CutsCleanly (fun row => wanted row = true) limit cursor?)
    (enumerated : listing.enumerate limit fuel cursor? = some listed) :
    listed.filter wanted =
      (listing.remaining cursor?).filter wanted := by
  induction clean generalizing fuel listed with
  | @ended cursor? noCursor nothing =>
      cases fuel with
      | zero =>
          cases enumerated
      | succ fuel =>
          rw [enumerate, noCursor] at enumerated
          cases enumerated
          rw [← page_append_beyond limit cursor?, List.filter_append,
            List.filter_eq_nil_iff.mpr nothing, List.append_nil]
  | @next cursor? cursor isNext read unread later inductionHypothesis =>
      cases fuel with
      | zero =>
          cases enumerated
      | succ fuel =>
          rw [enumerate, isNext] at enumerated
          obtain ⟨rest, isRest, rfl⟩ :=
            Option.map_eq_some_iff.mp enumerated
          rw [← page_append_beyond limit cursor?, List.filter_append,
            List.filter_append, inductionHypothesis isRest,
            wanted_remaining_next isNext read unread]

/-- A page's wanted rows behind the next cursor are read a second time. -/
theorem mem_of_behind_page
    {row : ρ}
    (isNext : listing.nextCursor limit cursor? = some cursor)
    (enumerated :
      listing.enumerate limit fuel (some cursor) = some listed)
    (inPage : row ∈ listing.page limit cursor?)
    (isBehind : listing.behind cursor row = true) :
    row ∈ listed := by
  have inNextPage : row ∈ listing.page limit (some cursor) := by
    rw [page, remaining_next isNext, ← page_append_beyond limit cursor?,
      List.filter_append]
    have short :
        ((listing.page limit cursor?).filter
          (listing.behind cursor)).length ≤ limit :=
      Nat.le_trans (List.length_filter_le _ _) (List.length_take_le _ _)
    rw [List.take_append, List.take_of_length_le short]
    exact List.mem_append_left _
      (List.mem_filter.mpr ⟨inPage, isBehind⟩)
  cases fuel with
  | zero =>
      cases enumerated
  | succ fuel =>
      rw [enumerate] at enumerated
      split at enumerated
      · cases enumerated
        exact inNextPage
      · obtain ⟨rest, -, rfl⟩ := Option.map_eq_some_iff.mp enumerated
        exact List.mem_append_left rest inNextPage

/-- A client that reads every wanted row exactly once has met clean cuts
only. -/
theorem cutsCleanly_of_enumerated
    (enumerated : listing.enumerate limit fuel cursor? = some listed)
    (once :
      (listed.filter wanted).Perm
        ((listing.remaining cursor?).filter wanted)) :
    listing.CutsCleanly (fun row => wanted row = true) limit cursor? := by
  induction fuel generalizing cursor? listed with
  | zero =>
      cases enumerated
  | succ fuel inductionHypothesis =>
      have distinct : (listed.filter wanted).Nodup :=
        once.nodup_iff.mpr ((remaining_nodup cursor?).filter _)
      have complete :
          ∀ row ∈ listing.beyond limit cursor?, wanted row = true →
            row ∈ listed := by
        intro row member isWanted
        have inRemaining : row ∈ listing.remaining cursor? :=
          List.mem_of_mem_drop member
        exact (List.mem_filter.mp
          (once.mem_iff.mpr
            (List.mem_filter.mpr ⟨inRemaining, isWanted⟩))).1
      have apart :
          ∀ row ∈ listing.beyond limit cursor?,
            row ∉ listing.page limit cursor? := by
        intro row isBeyond inPage
        have split :
            (listing.page limit cursor? ++
              listing.beyond limit cursor?).Nodup :=
          page_append_beyond limit cursor? ▸ remaining_nodup cursor?
        exact (List.nodup_append.mp split).2.2 row inPage row isBeyond rfl
      rw [enumerate] at enumerated
      cases isNext : listing.nextCursor limit cursor? with
      | none =>
          rw [isNext] at enumerated
          cases enumerated
          exact .ended isNext fun row member isWanted =>
            apart row member (complete row member isWanted)
      | some cursor =>
          rw [isNext] at enumerated
          obtain ⟨rest, isRest, rfl⟩ :=
            Option.map_eq_some_iff.mp enumerated
          have read :
              ∀ row ∈ listing.page limit cursor?, wanted row = true →
                listing.behind cursor row = false := by
            intro row inPage isWanted
            by_contra notPast
            have again :=
              mem_of_behind_page isNext isRest inPage
                ((Bool.not_eq_false _).mp notPast)
            rw [List.filter_append] at distinct
            exact (List.nodup_append.mp distinct).2.2 row
              (List.mem_filter.mpr ⟨inPage, isWanted⟩) row
              (List.mem_filter.mpr ⟨again, isWanted⟩) rfl
          have unread :
              ∀ row ∈ listing.beyond limit cursor?, wanted row = true →
                listing.behind cursor row = true := by
            intro row isBeyond isWanted
            rcases List.mem_append.mp (complete row isBeyond isWanted) with
              inPage | inRest
            · exact absurd inPage (apart row isBeyond)
            · have later := mem_remaining_of_enumerate isRest inRest
              rw [remaining_next isNext] at later
              exact (List.mem_filter.mp later).2
          refine .next isNext read unread (inductionHypothesis isRest ?_)
          rw [wanted_remaining_next isNext read unread]
          rw [← page_append_beyond limit cursor?, List.filter_append,
            List.filter_append] at once
          exact (List.perm_append_left_iff _).mp once

end Complete

/-- The listing cuts cleanly behind its first rows: the cursor of the last of
them has none of them behind it and all the others. -/
def CutsAt
    (listing : Listing ρ κ)
    (count : Nat) : Prop :=
  ∀ cursor,
    (listing.rows.take count).getLast?.bind listing.cursorOf =
        some cursor →
      (∀ row ∈ listing.rows.take count,
        listing.behind cursor row = false) ∧
      ∀ row ∈ listing.rows.drop count, listing.behind cursor row = true

/-- A client that has read the first pages of a listing, and nothing else is
behind its cursor but the rows that follow them. -/
structure ReadTo
    (listing : Listing ρ κ)
    (count : Nat)
    (cursor? : Option κ) : Prop where
  rest : listing.remaining cursor? = listing.rows.drop count
  taken :
    (listing.rows.take count).getLast?.bind listing.cursorOf = cursor?
  read :
    ∀ cursor, cursor? = some cursor →
      ∀ row ∈ listing.rows.take count, listing.behind cursor row = false

theorem readTo_start : listing.ReadTo 0 none where
  rest := rfl
  taken := rfl
  read := fun _ isCursor => by cases isCursor

section Boundaries

variable {wanted : ρ → Prop}
variable {limit count : Nat}
variable {cursor? : Option κ}
variable {cursor : κ}

/-- The first rows with one page more. -/
theorem ReadTo.take_page
    (read : listing.ReadTo count cursor?) :
    listing.rows.take (count + limit) =
      listing.rows.take count ++ listing.page limit cursor? := by
  rw [page, read.rest, List.take_add]

theorem ReadTo.beyond_eq
    (read : listing.ReadTo count cursor?) :
    listing.beyond limit cursor? = listing.rows.drop (count + limit) := by
  rw [beyond, read.rest, List.drop_drop]

/-- The cursor of the first rows with one page more. -/
theorem ReadTo.nextCursor_eq
    (read : listing.ReadTo count cursor?)
    (nonempty : listing.page limit cursor? ≠ []) :
    (listing.rows.take (count + limit)).getLast?.bind listing.cursorOf =
      listing.nextCursor limit cursor? := by
  rw [read.take_page, List.getLast?_append_of_ne_nil _ nonempty,
    nextCursor]

/-- Rows with cursors of their own leave a client without one only where there
are none. -/
theorem eq_nil_of_no_cursor
    {rows : List ρ}
    (cursors : ∀ row ∈ rows, (listing.cursorOf row).isSome)
    (noCursor : rows.getLast?.bind listing.cursorOf = none) :
    rows = [] := by
  cases isLast : rows.getLast? with
  | none =>
      exact List.getLast?_eq_none_iff.mp isLast
  | some last =>
      rw [isLast, Option.bind_some] at noCursor
      have hasCursor := cursors last (List.mem_of_getLast? isLast)
      rw [noCursor] at hasCursor
      cases hasCursor

/-- The rows read before are not behind the next cursor. -/
theorem ReadTo.past
    (cursors : ∀ row ∈ listing.rows, (listing.cursorOf row).isSome)
    (read : listing.ReadTo count cursor?)
    (isNext : listing.nextCursor limit cursor? = some cursor)
    {row : ρ}
    (member : row ∈ listing.rows.take count) :
    listing.behind cursor row = false := by
  cases cursor? with
  | none =>
      have nothing :=
        eq_nil_of_no_cursor
          (fun other isTaken => cursors other (List.mem_of_mem_take isTaken))
          read.taken
      rw [nothing] at member
      cases member
  | some first =>
      obtain ⟨last, -, -, isRemaining, isCursor⟩ :=
        exists_of_nextCursor isNext
      by_contra notPast
      have isBehind :=
        listing.onward isCursor (List.mem_filter.mp isRemaining).2
          ((Bool.not_eq_false _).mp notPast)
      rw [read.read first rfl row member] at isBehind
      cases isBehind

theorem page_ne_nil_of_nextCursor
    (isNext : listing.nextCursor limit cursor? = some cursor) :
    listing.page limit cursor? ≠ [] := by
  obtain ⟨row, -, inPage, -, -⟩ := exists_of_nextCursor isNext
  exact List.ne_nil_of_mem inPage

/-- A cut one page on is a cut behind the page. -/
theorem ReadTo.cutsAt_page_iff
    (cursors : ∀ row ∈ listing.rows, (listing.cursorOf row).isSome)
    (read : listing.ReadTo count cursor?)
    (isNext : listing.nextCursor limit cursor? = some cursor) :
    listing.CutsAt (count + limit) ↔
      (∀ row ∈ listing.page limit cursor?,
        listing.behind cursor row = false) ∧
      ∀ row ∈ listing.beyond limit cursor?,
        listing.behind cursor row = true := by
  have isTaken :
      (listing.rows.take (count + limit)).getLast?.bind listing.cursorOf =
        some cursor :=
    (read.nextCursor_eq (page_ne_nil_of_nextCursor isNext)).trans isNext
  rw [read.beyond_eq]
  constructor
  · intro cuts
    obtain ⟨before, after⟩ := cuts cursor isTaken
    refine ⟨fun row inPage => before row ?_, after⟩
    rw [read.take_page]
    exact List.mem_append_right _ inPage
  · rintro ⟨before, after⟩ other isOther
    rw [isTaken, Option.some.injEq] at isOther
    subst isOther
    refine ⟨?_, after⟩
    intro row member
    rw [read.take_page] at member
    rcases List.mem_append.mp member with earlier | inPage
    · exact read.past cursors isNext earlier
    · exact before row inPage

/-- Behind a cut the client has read one page more. -/
theorem ReadTo.next
    (read : listing.ReadTo count cursor?)
    (isNext : listing.nextCursor limit cursor? = some cursor)
    (cuts : listing.CutsAt (count + limit)) :
    listing.ReadTo (count + limit) (some cursor) := by
  have isTaken :
      (listing.rows.take (count + limit)).getLast?.bind listing.cursorOf =
        some cursor :=
    (read.nextCursor_eq (page_ne_nil_of_nextCursor isNext)).trans isNext
  obtain ⟨before, after⟩ := cuts cursor isTaken
  refine ⟨?_, isTaken, ?_⟩
  · rw [remaining_next isNext, ← page_append_beyond limit cursor?,
      List.filter_append, read.beyond_eq, List.filter_eq_self.mpr after,
      List.filter_eq_nil_iff.mpr, List.nil_append]
    intro row inPage isBehind
    have notBehind := before row (by
      rw [read.take_page]
      exact List.mem_append_right _ inPage)
    rw [notBehind] at isBehind
    cases isBehind
  · intro other isOther
    cases isOther
    exact before

/-- Where every row is wanted and has a cursor, the pages end cleanly exactly
when the listing cuts cleanly at every multiple of the limit. -/
theorem ReadTo.cutsCleanly_iff
    {pages : Nat}
    (positive : 0 < limit)
    (cursors : ∀ row ∈ listing.rows, (listing.cursorOf row).isSome)
    (everything : ∀ row ∈ listing.rows, wanted row)
    (read : listing.ReadTo (pages * limit) cursor?) :
    listing.CutsCleanly wanted limit cursor? ↔
      ∀ more, pages < more → listing.CutsAt (more * limit) := by
  generalize size : (listing.remaining cursor?).length = left
  induction left using Nat.strongRecOn generalizing pages cursor? with
  | ind left inductionHypothesis =>
      cases isNext : listing.nextCursor limit cursor? with
      | none =>
          have nothing : listing.remaining cursor? = [] := by
            have noPage : listing.page limit cursor? = [] := by
              refine eq_nil_of_no_cursor ?_ isNext
              intro row inPage
              exact cursors row
                ((remaining_sublist cursor?).subset
                  (List.mem_of_mem_take inPage))
            exact (List.take_eq_nil_iff.mp noPage).resolve_left
              (Nat.pos_iff_ne_zero.mp positive)
          constructor
          · intro _ more isMore cursor isTaken
            have allRead : listing.rows.length ≤ pages * limit :=
              List.drop_eq_nil_iff.mp (read.rest.symm.trans nothing)
            have allReadLater : listing.rows.length ≤ more * limit :=
              Nat.le_trans allRead
                (Nat.mul_le_mul_right limit (Nat.le_of_lt isMore))
            rw [List.take_of_length_le allReadLater] at isTaken ⊢
            rw [List.drop_eq_nil_iff.mpr allReadLater]
            have isCursor := read.taken
            rw [List.take_of_length_le allRead] at isCursor
            have readAll := read.read cursor (isCursor.symm.trans isTaken)
            rw [List.take_of_length_le allRead] at readAll
            exact ⟨readAll, fun row member => by cases member⟩
          · intro _
            refine .ended isNext ?_
            rw [beyond, nothing, List.drop_nil]
            intro row member
            cases member
      | some cursor =>
          have onePage : pages * limit + limit = (pages + 1) * limit :=
            (Nat.succ_mul pages limit).symm
          have shrinks := remaining_shrinks isNext
          have isCut := @ReadTo.cutsAt_page_iff _ _ listing limit _ _ _
            cursors read isNext
          constructor
          · intro clean more isMore
            cases clean with
            | ended noCursor nothing =>
                rw [isNext] at noCursor
                cases noCursor
            | next isOther before after later =>
                rw [isNext, Option.some.injEq] at isOther
                subst isOther
                have cuts := isCut.mpr
                  ⟨fun row inPage =>
                      before row inPage
                        (everything row
                          ((remaining_sublist cursor?).subset
                            (List.mem_of_mem_take inPage))),
                    fun row isBeyond =>
                      after row isBeyond
                        (everything row
                          ((remaining_sublist cursor?).subset
                            (List.mem_of_mem_drop isBeyond)))⟩
                rcases Nat.lt_or_eq_of_le (Nat.succ_le_of_lt isMore) with
                  isLater | rfl
                · have further := read.next isNext cuts
                  rw [onePage] at further
                  exact (inductionHypothesis _ (size ▸ shrinks) further
                    rfl).mp later more isLater
                · rw [Nat.succ_eq_add_one, ← onePage]
                  exact cuts
          · intro cutsLater
            have cuts := cutsLater (pages + 1) (Nat.lt_succ_self pages)
            rw [← onePage] at cuts
            obtain ⟨before, after⟩ := isCut.mp cuts
            have further := read.next isNext cuts
            rw [onePage] at further
            refine .next isNext (fun row inPage _ => before row inPage)
              (fun row isBeyond _ => after row isBeyond) ?_
            refine (inductionHypothesis _ (size ▸ shrinks) further
              rfl).mpr ?_
            intro more isMore
            exact cutsLater more (Nat.lt_of_succ_lt isMore)

end Boundaries

end Listing

end Pagination
