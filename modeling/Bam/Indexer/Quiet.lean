import Bam.Indexer.Serving

namespace Bam

/-!
# Ticks after the writes have stopped

Once nothing writes the source, ticks that meet no error read every confirmed
row ahead of the cursor.  From there on no tick finds a row to read.
-/

open Behaviors

section Quiet

variable {Source Event Decoded Values : Type}
variable (system : SourceSystem Source Event)
variable (options : TickOptions Decoded Values)

/-- The confirmed rows ahead of a cursor. -/
def Store.ahead
    (store : Store)
    (cursor : HandlerCursor) : List MessageRow :=
  store.messages.rows.filter fun row =>
    row.isListed options.chainId options.handler.contentTag &&
      decide (cursor.forward.sortKey < row.coordKey)

/-- How many confirmed rows lie ahead of the current generation. -/
def Indexing.ahead
    (world : Indexing Source Values) : Nat :=
  match world.db.cursors.getCurrentCursor with
  | none => 0
  | some current =>
      ((system.store world.source).ahead options current).length

/-- The handler can project every row it can decode. -/
def Projectable
    (store : Store) : Prop :=
  ∀ row ∈ store.messages.rows,
    row.isListed options.chainId options.handler.contentTag = true →
    ∀ decoded,
      options.handler.decode row.contents = some decoded →
      ∀ versionId,
        ∃ projected,
          options.handler.projectRow versionId row decoded =
            some projected

/-- The state of an indexer whose source is not written any more. -/
structure Indexing.Quiet
    (world : Indexing Source Values) : Prop where
  served : world.Served options
  projectable : Projectable options (system.store world.source)
  /-- What a tick has read is still in the store. -/
  stored :
    ∀ row ∈ world.stage.rows,
      row ∈ (system.store world.source).messages.rows

variable {system options}

theorem Store.mem_ahead
    {store : Store}
    {cursor : HandlerCursor}
    {row : MessageRow} :
    row ∈ store.ahead options cursor ↔
      row ∈ store.messages.rows ∧
        row.isListed options.chainId options.handler.contentTag = true ∧
        cursor.forward.sortKey < row.coordKey := by
  simp [Store.ahead]

/-- A cursor further on has fewer rows ahead. -/
theorem Store.ahead_sublist
    (store : Store)
    {old new : HandlerCursor}
    (later : old.forward.sortKey ≤ new.forward.sortKey) :
    (store.ahead options new).Sublist (store.ahead options old) := by
  refine List.monotone_filter_right _ fun row isAhead => ?_
  rw [Bool.and_eq_true, decide_eq_true_eq] at isAhead ⊢
  exact ⟨isAhead.1, lt_of_le_of_lt later isAhead.2⟩

/-- A cursor that comes to stand at a row it had ahead has fewer rows
ahead. -/
theorem Store.ahead_length_lt
    {store : Store}
    {old new : HandlerCursor}
    {row : MessageRow}
    (isAhead : row ∈ store.ahead options old)
    (atRow : new.forward.sortKey = row.coordKey) :
    (store.ahead options new).length <
      (store.ahead options old).length := by
  have wasAhead := (Store.mem_ahead.mp isAhead).2.2
  have sublist :
      (store.ahead options new).Sublist (store.ahead options old) :=
    store.ahead_sublist (le_of_lt (atRow ▸ wasAhead))
  refine Nat.lt_of_le_of_ne sublist.length_le fun sameLength => ?_
  have same := sublist.eq_of_length sameLength
  rw [← same] at isAhead
  have still := (Store.mem_ahead.mp isAhead).2.2
  rw [atRow] at still
  exact lt_irrefl _ still

/-- A transaction of the tick never moves the cursor back. -/
theorem Indexing.Served.cursor_advance
    {world : Indexing Source Values}
    (served : world.Served options)
    (system : SourceSystem Source Event)
    (now : Int)
    {current : HandlerCursor}
    (isCurrent : world.db.cursors.getCurrentCursor = some current) :
    ∃ next,
      (world.advance system options now).db.cursors.getCurrentCursor =
          some next ∧
        next.versionId = current.versionId ∧
        current.forward.sortKey ≤ next.forward.sortKey := by
  have move :=
    tickAdvance_move options (system.store world.source) world.db now
      world.stage
  obtain ⟨source, db, stage⟩ := world
  simp only [Indexing.advance] at move isCurrent ⊢
  generalize (tickAdvance options (system.store source) db now
    stage).1 = nextDb at *
  generalize (tickAdvance options (system.store source) db now
    stage).2 = nextStage at *
  have unmoved :
      ∃ next,
        db.cursors.getCurrentCursor = some next ∧
          next.versionId = current.versionId ∧
          current.forward.sortKey ≤ next.forward.sortKey :=
    ⟨current, isCurrent, rfl, le_refl _⟩
  have passes :
      ∀ forward row rest (next : IndexerDb Values),
        stage = .projecting forward (row :: rest) →
        db.cursors.upsertCursor (forward.advancedTo row now) =
          some next.cursors →
        ∃ later,
          next.cursors.getCurrentCursor = some later ∧
            later.versionId = current.versionId ∧
            current.forward.sortKey ≤ later.forward.sortKey := by
    rintro forward row rest next rfl upserted
    have carried := served.forward forward rfl
    have same : current = forward :=
      Option.some.inj (isCurrent.symm.trans carried)
    subst same
    refine ⟨_, HandlerCursors.getCurrentCursor_upsertCursor upserted
      (HandlerCursors.getCurrentCursor_eq_some_iff.mp carried).2, rfl, ?_⟩
    rw [HandlerCursor.sortKey_advancedTo
      (served.listed row List.mem_cons_self)]
    exact served.ahead current rfl row List.mem_cons_self
  cases move with
  | absent _ | read _ _ | list _ | projected _ | listReorged _ | finish _ =>
      exact unmoved
  | skipRefused _ _ _ _ _ | projectRefused _ _ _ _ _ _
  | evictRefused _ _ _ _ =>
      exact unmoved
  | skip forward row rest next undecodable committed =>
      exact passes forward row rest _ rfl (skipTxn_eq_some committed).2
  | project forward row rest decoded next decodes committed =>
      obtain ⟨_, _, _, -, -, -, -, -, -, upserted⟩ :=
        projectTxn_eq_some committed
      exact passes forward row rest _ rfl upserted
  | evict forward entry rest next committed =>
      obtain ⟨_, -, -, upserted⟩ := reorgTxn_eq_some committed
      have carried := served.forward forward rfl
      have same : current = forward :=
        Option.some.inj (isCurrent.symm.trans carried)
      subst same
      exact ⟨_, HandlerCursors.getCurrentCursor_upsertCursor upserted
        (HandlerCursors.getCurrentCursor_eq_some_iff.mp carried).2, rfl,
        le_refl _⟩

/-- What a tick has read is still in a store that is not written. -/
theorem Indexing.Quiet.advance
    {world : Indexing Source Values}
    (quiet : world.Quiet system options)
    (now : Int) :
    (world.advance system options now).Quiet system options := by
  refine ⟨quiet.served.advance now, quiet.projectable, ?_⟩
  have stored := quiet.stored
  have move :=
    tickAdvance_move options (system.store world.source) world.db now
      world.stage
  obtain ⟨source, db, stage⟩ := world
  simp only [Indexing.advance] at move stored ⊢
  generalize (tickAdvance options (system.store source) db now
    stage).1 = nextDb at *
  generalize (tickAdvance options (system.store source) db now
    stage).2 = nextStage at *
  cases move with
  | list forward =>
      exact fun row member => (mem_of_mem_listConfirmedAfter member).1
  | skip _ row _ _ _ _ | project _ row _ _ _ _ _ =>
      exact fun other member =>
        stored other (List.mem_cons_of_mem row member)
  | _ => exact fun _ member => absurd member List.not_mem_nil

/-- A tick that meets no error passes the next row it has read. -/
theorem Indexing.Quiet.passes
    {world : Indexing Source Values}
    (quiet : world.Quiet system options)
    {forward : HandlerCursor}
    {row : MessageRow}
    {rest : List MessageRow}
    (isStage : world.stage = .projecting forward (row :: rest))
    (now : Int) :
    (world.advance system options now).stage =
        .projecting (forward.advancedTo row now) rest ∧
      (world.advance system options now).db.cursors.getCurrentCursor =
        some (forward.advancedTo row now) := by
  have current := quiet.served.forward forward (by rw [isStage]; rfl)
  have isCurrent : (forward.advancedTo row now).isCurrent = true :=
    (HandlerCursors.getCurrentCursor_eq_some_iff.mp current).2
  obtain ⟨cursors, upserted⟩ :=
    HandlerCursors.upsertCursor_of_current current
      (show (forward.advancedTo row now).versionId = forward.versionId
        from rfl)
  have nextCurrent :=
    HandlerCursors.getCurrentCursor_upsertCursor upserted isCurrent
  obtain ⟨table, isTable⟩ := quiet.served.table
  have onList : row ∈ world.stage.rows := by
    rw [isStage]
    exact List.mem_cons_self
  unfold Indexing.advance
  simp only [isStage, tickAdvance, projectOne]
  cases decodes : options.handler.decode row.contents with
  | none =>
      simp only [skipTxn, upserted, Option.map_some]
      exact ⟨trivial, nextCurrent⟩
  | some decoded =>
      obtain ⟨projected, isProjected⟩ :=
        quiet.projectable row (quiet.stored row onList)
          (quiet.served.listed row onList) decoded decodes
          forward.versionId
      obtain ⟨schema, inserted⟩ :=
        HandlerSchema.insert_posts options.handler.onConflict projected
          table
      rw [← isTable] at inserted
      simp only [projectTxn, isProjected, inserted, upserted,
        Option.map_some]
      exact ⟨trivial, nextCurrent⟩

/-- Ticks read no more rows than there are. -/
theorem Indexing.Served.ahead_advance_le
    {world : Indexing Source Values}
    (served : world.Served options)
    (now : Int) :
    (world.advance system options now).ahead system options ≤
      world.ahead system options := by
  obtain ⟨current, isCurrent⟩ := served.current
  obtain ⟨next, isNext, -, later⟩ :=
    served.cursor_advance system now isCurrent
  have sublist :
      ((system.store world.source).ahead options next).Sublist
        ((system.store world.source).ahead options current) :=
    Store.ahead_sublist _ later
  unfold Indexing.ahead
  rw [isCurrent, isNext]
  exact sublist.length_le

/-- The order of a tick's stages, from its end. -/
def TickStage.phase : TickStage → Nat
  | .idle => 0
  | .reorging _ _ => 1
  | .listingReorged _ => 2
  | .projecting _ _ => 3
  | .listing _ => 4

/-- How far a tick is from its end. -/
def TickStage.rank (stage : TickStage) : Nat × Nat :=
  (stage.phase, stage.rows.length + stage.entries.length)

/-- Every transaction brings a tick closer to its end. -/
theorem rank_tickAdvance
    (options : TickOptions Decoded Values)
    (store : Store)
    (db : IndexerDb Values)
    (now : Int)
    {stage : TickStage}
    (running : stage ≠ .idle) :
    Prod.Lex (· < ·) (· < ·)
      (tickAdvance options store db now stage).2.rank stage.rank := by
  have move := tickAdvance_move options store db now stage
  generalize (tickAdvance options store db now stage).1 = nextDb at *
  generalize (tickAdvance options store db now stage).2 = nextStage at *
  have shorter : ∀ count : Nat, count < count + 1 := Nat.lt_succ_self
  cases move with
  | absent _ | read _ _ =>
      exact absurd rfl running
  | skip _ _ rest _ _ _ | project _ _ rest _ _ _ _ =>
      exact .right _ (shorter rest.length)
  | evict _ _ rest _ _ =>
      refine .right _ ?_
      simp [TickStage.rows, TickStage.entries]
  | _ => exact .left _ _ (by simp [TickStage.phase])

/-- Every tick ends. -/
theorem leads_idle
    {keeps : Indexing Source Values → Prop}
    (kept :
      ∀ world now, keeps world →
        keeps (world.advance system options now)) :
    Leads (Indexing.advance system options) keeps
      (fun world => keeps world ∧ world.stage = .idle) := by
  refine leads_by_cases (fun world => world.stage = .idle)
    (leads_of_imp fun _ isIdle => isIdle) ?_
  refine leads_of_rank_step
    (WellFounded.prod_lex Nat.lt_wfRel.wf Nat.lt_wfRel.wf)
    (fun world => world.stage.rank) ?_
  rintro world now ⟨isKept, running⟩
  have next := kept world now isKept
  have closer :=
    rank_tickAdvance options (system.store world.source) world.db now
      running
  by_cases ended : (world.advance system options now).stage = .idle
  · exact .inl ⟨next, ended⟩
  · exact .inr ⟨⟨next, ended⟩, closer⟩

/-- No tick finds a row to read any more. -/
structure Indexing.CaughtUp
    (system : SourceSystem Source Event)
    (options : TickOptions Decoded Values)
    (world : Indexing Source Values) : Prop where
  quiet : world.Quiet system options
  noRows : world.stage.rows = []
  noneAhead : world.ahead system options = 0

/-- A cursor with no rows ahead has every confirmed row behind it. -/
theorem Indexing.CaughtUp.passed
    {world : Indexing Source Values}
    (caughtUp : world.CaughtUp system options)
    {current : HandlerCursor}
    (isCurrent : world.db.cursors.getCurrentCursor = some current)
    {row : MessageRow}
    (stored : row ∈ (system.store world.source).messages.rows)
    (listed :
      row.isListed options.chainId options.handler.contentTag = true) :
    row.coordKey ≤ current.forward.sortKey := by
  have none := caughtUp.noneAhead
  unfold Indexing.ahead at none
  rw [isCurrent] at none
  by_contra later
  have isAhead :=
    Store.mem_ahead.mpr ⟨stored, listed, not_le.mp later⟩
  rw [List.length_eq_zero_iff.mp none] at isAhead
  cases isAhead

/-- Ticks find nothing new in a store that is not written. -/
theorem Indexing.CaughtUp.advance
    {world : Indexing Source Values}
    (caughtUp : world.CaughtUp system options)
    (now : Int) :
    (world.advance system options now).CaughtUp system options := by
  have quiet := caughtUp.quiet
  refine ⟨quiet.advance now, ?_,
    Nat.le_zero.mp
      (caughtUp.noneAhead ▸ quiet.served.ahead_advance_le now)⟩
  have noRows := caughtUp.noRows
  have passed := @caughtUp.passed
  have forward := quiet.served.forward
  have move :=
    tickAdvance_move options (system.store world.source) world.db now
      world.stage
  obtain ⟨source, db, stage⟩ := world
  simp only [Indexing.advance] at move noRows passed forward ⊢
  generalize (tickAdvance options (system.store source) db now
    stage).1 = nextDb at *
  generalize (tickAdvance options (system.store source) db now
    stage).2 = nextStage at *
  cases move with
  | list current =>
      refine List.eq_nil_iff_forall_not_mem.mpr fun row member => ?_
      obtain ⟨stored, listed, later⟩ :=
        mem_of_mem_listConfirmedAfter member
      exact absurd (passed (forward current rfl) stored listed)
        (not_le.mpr later)
  | skip _ _ _ _ _ _ | project _ _ _ _ _ _ _ =>
      cases noRows
  | _ => rfl

/-- A generation that has caught up gains no row. -/
theorem Indexing.CaughtUp.present_advance
    {world : Indexing Source Values}
    (caughtUp : world.CaughtUp system options)
    (now : Int)
    {versionId : Nat}
    {row : MessageRow}
    (present : (world.advance system options now).db.Present versionId row) :
    world.db.Present versionId row := by
  have noRows := caughtUp.noRows
  have move :=
    tickAdvance_move options (system.store world.source) world.db now
      world.stage
  obtain ⟨source, db, stage⟩ := world
  simp only [Indexing.advance] at move noRows present ⊢
  generalize (tickAdvance options (system.store source) db now
    stage).1 = nextDb at *
  generalize (tickAdvance options (system.store source) db now
    stage).2 = nextStage at *
  cases move with
  | skip _ _ _ _ _ _ | project _ _ _ _ _ _ _ =>
      cases noRows
  | evict forward entry rest next committed =>
      obtain ⟨projected, member, facts⟩ := present
      exact ⟨projected, ((mem_rows_reorgTxn committed projected).mp
        member).1, facts⟩
  | _ => exact present

/-- A row that is missing once a generation has caught up stays missing. -/
theorem Indexing.CaughtUp.missing_forever
    {world : Indexing Source Values}
    (caughtUp : world.CaughtUp system options)
    {current : HandlerCursor}
    (isCurrent : world.db.cursors.getCurrentCursor = some current)
    {row : MessageRow}
    (missing : ¬ world.db.Present current.versionId row)
    (nows : ℕ → Int)
    (count : ℕ) :
    ∃ later,
      (after (Indexing.advance system options) nows world
          count).db.cursors.getCurrentCursor = some later ∧
        ¬ (after (Indexing.advance system options) nows world
          count).db.Present later.versionId row := by
  let keeps (world : Indexing Source Values) : Prop :=
    world.CaughtUp system options ∧
      ∃ later,
        world.db.cursors.getCurrentCursor = some later ∧
          ¬ world.db.Present later.versionId row
  have kept : ∀ world now, keeps world →
      keeps (world.advance system options now) := by
    rintro world now ⟨isCaughtUp, later, isLater, isMissing⟩
    obtain ⟨next, isNext, sameVersion, -⟩ :=
      isCaughtUp.quiet.served.cursor_advance system now isLater
    refine ⟨isCaughtUp.advance now, next, isNext, fun present => ?_⟩
    exact isMissing (isCaughtUp.present_advance now (sameVersion ▸ present))
  have initially : keeps world := ⟨caughtUp, current, isCurrent, missing⟩
  exact (after_keeps kept initially count :
    keeps (after (Indexing.advance system options) nows world count)).2

/-- The first row a tick reads ahead of the cursor brings the end closer. -/
theorem Indexing.Quiet.ahead_lt
    {world : Indexing Source Values}
    (quiet : world.Quiet system options)
    {forward : HandlerCursor}
    {row : MessageRow}
    {rest : List MessageRow}
    (isStage : world.stage = .projecting forward (row :: rest))
    (later : forward.forward.sortKey < row.coordKey)
    (now : Int) :
    (world.advance system options now).ahead system options <
      world.ahead system options := by
  have onList : row ∈ world.stage.rows := by
    rw [isStage]
    exact List.mem_cons_self
  have listed := quiet.served.listed row onList
  have current := quiet.served.forward forward (by rw [isStage]; rfl)
  unfold Indexing.ahead
  rw [current, (quiet.passes isStage now).2]
  exact Store.ahead_length_lt
    (Store.mem_ahead.mpr ⟨quiet.stored row onList, listed, later⟩)
    (HandlerCursor.sortKey_advancedTo listed forward now)

/-- Ticks without errors read every confirmed row. -/
theorem leads_caughtUp
    (positive : 0 < options.batchSize) :
    Leads (Indexing.advance system options)
      (fun world => world.Quiet system options)
      (fun world => world.CaughtUp system options) := by
  refine leads_of_rank Nat.lt_wfRel.wf
    (fun world => world.ahead system options) fun bound => ?_
  let upTo (world : Indexing Source Values) : Prop :=
    world.Quiet system options ∧ world.ahead system options ≤ bound
  have kept :
      ∀ world now, upTo world →
        upTo (world.advance system options now) :=
    fun world now isUpTo =>
      ⟨isUpTo.1.advance now,
        Nat.le_trans (isUpTo.1.served.ahead_advance_le now) isUpTo.2⟩
  refine (leads_of_imp fun world isBound =>
    (⟨isBound.1, Nat.le_of_eq isBound.2⟩ : upTo world)).trans
      ((leads_idle kept).trans ?_)
  refine leads_by_cases (fun world => world.ahead system options = 0)
    (leads_of_imp fun world isDone =>
      .inl ⟨isDone.1.1.1, by rw [isDone.1.2]; rfl, isDone.2⟩) ?_
  let reads (world : Indexing Source Values) : Prop :=
    upTo world ∧ world.ahead system options ≠ 0 ∧
      ∃ forward, world.stage = .listing forward
  let projects (world : Indexing Source Values) : Prop :=
    upTo world ∧ ∃ forward row rest,
      world.stage = .projecting forward (row :: rest) ∧
        forward.forward.sortKey < row.coordKey
  refine leads_after_step reads ?_
    (leads_after_step projects ?_ (leads_of_step ?_))
  · rintro world now ⟨⟨isUpTo, isIdle⟩, some⟩
    obtain ⟨forward, current⟩ := isUpTo.1.served.current
    refine ⟨kept world now isUpTo, ?_, forward, ?_⟩
    · unfold Indexing.advance Indexing.ahead at *
      simpa only [isIdle, tickAdvance, current] using some
    · unfold Indexing.advance
      simp only [isIdle, tickAdvance, current]
  · rintro world now ⟨isUpTo, some, forward, isStage⟩
    have current := isUpTo.1.served.forward forward (by rw [isStage]; rfl)
    unfold Indexing.ahead at some
    rw [current] at some
    obtain ⟨row, isAhead⟩ :=
      List.exists_mem_of_length_pos (Nat.pos_of_ne_zero some)
    obtain ⟨stored, listed, later⟩ := Store.mem_ahead.mp isAhead
    obtain ⟨first, rest, isList⟩ :=
      List.exists_cons_of_ne_nil
        (listConfirmedAfter_ne_nil positive stored listed later)
    have firstLater :=
      (mem_of_mem_listConfirmedAfter
        (isList ▸ List.mem_cons_self : first ∈ _)).2.2
    refine ⟨kept world now isUpTo, forward, first, rest, ?_, firstLater⟩
    unfold Indexing.advance
    simp only [isStage, tickAdvance, isList]
  · rintro world now ⟨isUpTo, forward, row, rest, isStage, later⟩
    exact .inr ⟨isUpTo.1.advance now,
      Nat.lt_of_lt_of_le (isUpTo.1.ahead_lt isStage later now) isUpTo.2⟩

/-- A tick between two rounds has read nothing that is not in the store. -/
theorem Indexing.Quiet.of_idle
    {world : Indexing Source Values}
    (served : world.Served options)
    (projectable : Projectable options (system.store world.source))
    (isIdle : world.stage = .idle) :
    world.Quiet system options where
  served := served
  projectable := projectable
  stored row member := by
    rw [isIdle] at member
    cases member

/-- Once writes have stopped and ticks meet no error, every confirmed row is
read, whatever the tick in progress had read before. -/
theorem leads_caughtUp_of_served
    (positive : 0 < options.batchSize) :
    Leads (Indexing.advance system options)
      (fun world =>
        world.Served options ∧
          Projectable options (system.store world.source))
      (fun world => world.CaughtUp system options) := by
  refine (leads_idle fun world now isServed =>
    ⟨isServed.1.advance now, isServed.2⟩).trans
      ((leads_of_imp fun world reached => ?_).trans
        (leads_caughtUp positive))
  exact .of_idle reached.1.1 reached.1.2 reached.2

end Quiet

end Bam
