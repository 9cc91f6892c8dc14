import Bam.Indexer.Forward

namespace Bam

/-!
# Completeness of the reorg pass

Reorged batches are read behind a timestamp cursor, in pages.  The history
`owed` holds the batches with a projection after their last eviction; no step
of the indexer reads it.  This module says what each step has to avoid, and that
no reorged batch is owed in the end.
-/

open Behaviors

section Eviction

variable {Source Event Decoded Values : Type}
variable (system : SourceSystem Source Event)
variable (options : TickOptions Decoded Values)

/-- The reorged batches of the handler's tag. -/
def Store.reorgEntries (store : Store) : List ReorgEntry :=
  store.batches.rows.filterMap
    (BatchRow.reorgEntry? options.chainId options.handler.contentTag)

/-- The reorged batches ahead of a cursor. -/
def Store.due
    (store : Store)
    (cursor : HandlerCursor) : List ReorgEntry :=
  (store.reorgEntries options).filter fun entry =>
    decide (cursor.lastReorgInvalidatedAt < entry.invalidatedAt)

/-- How many reorged batches lie ahead of the current generation. -/
def Indexing.due
    (world : Indexing Source Values) : Nat :=
  match world.db.cursors.getCurrentCursor with
  | none => 0
  | some current =>
      ((system.store world.source).due options current).length

variable {system options}

theorem Store.mem_due
    {store : Store}
    {cursor : HandlerCursor}
    {entry : ReorgEntry} :
    entry ∈ store.due options cursor ↔
      entry ∈ store.reorgEntries options ∧
        cursor.lastReorgInvalidatedAt < entry.invalidatedAt := by
  simp [Store.due]

/-- A later cursor has fewer reorged batches ahead. -/
theorem Store.due_sublist
    (store : Store)
    {old new : HandlerCursor}
    (later : old.lastReorgInvalidatedAt ≤ new.lastReorgInvalidatedAt) :
    (store.due options new).Sublist (store.due options old) := by
  refine List.monotone_filter_right _ fun entry isDue => ?_
  rw [decide_eq_true_eq] at isDue ⊢
  exact Int.lt_of_le_of_lt later isDue

/-- A cursor that reaches a batch it had ahead has fewer ahead. -/
theorem Store.due_length_lt
    {store : Store}
    {old new : HandlerCursor}
    {entry : ReorgEntry}
    (isDue : entry ∈ store.due options old)
    (reached : entry.invalidatedAt ≤ new.lastReorgInvalidatedAt) :
    (store.due options new).length < (store.due options old).length := by
  have wasDue := (Store.mem_due.mp isDue).2
  have sublist :
      (store.due options new).Sublist (store.due options old) :=
    store.due_sublist (Int.le_of_lt (Int.lt_of_lt_of_le wasDue reached))
  refine Nat.lt_of_le_of_ne sublist.length_le fun sameLength => ?_
  have same := sublist.eq_of_length sameLength
  rw [← same] at isDue
  exact absurd (Store.mem_due.mp isDue).2 (Int.not_lt.mpr reached)

/-- A transaction of the tick never moves the reorg cursor back. -/
theorem Indexing.Served.reorg_cursor_advance
    {world : Indexing Source Values}
    (served : world.Served options)
    (system : SourceSystem Source Event)
    (now : Int)
    {current : HandlerCursor}
    (isCurrent : world.db.cursors.getCurrentCursor = some current) :
    ∃ next,
      (world.advance system options now).db.cursors.getCurrentCursor =
          some next ∧
        current.lastReorgInvalidatedAt ≤ next.lastReorgInvalidatedAt := by
  have move :=
    tickAdvance_move options (system.store world.source) world.db now
      world.stage
  obtain ⟨source, db, stage⟩ := world
  simp only [Indexing.advance] at move isCurrent ⊢
  generalize (tickAdvance options (system.store source) db now
    stage).1 = nextDb at *
  generalize (tickAdvance options (system.store source) db now
    stage).2 = nextStage at *
  have rewrites :
      ∀ forward cursor (next : IndexerDb Values),
        stage.forward? = some forward →
        cursor.isCurrent = forward.isCurrent →
        forward.lastReorgInvalidatedAt ≤ cursor.lastReorgInvalidatedAt →
        db.cursors.upsertCursor cursor = some next.cursors →
        ∃ later,
          next.cursors.getCurrentCursor = some later ∧
            current.lastReorgInvalidatedAt ≤
              later.lastReorgInvalidatedAt := by
    intro forward cursor next carries sameFlag later upserted
    have carried := served.forward forward carries
    have same : current = forward :=
      Option.some.inj (isCurrent.symm.trans carried)
    subst same
    exact ⟨cursor, HandlerCursors.getCurrentCursor_upsertCursor upserted
      (sameFlag.trans
        (HandlerCursors.getCurrentCursor_eq_some_iff.mp carried).2), later⟩
  cases move with
  | skip forward row rest next undecodable committed =>
      exact rewrites forward (forward.advancedTo row now) _ rfl rfl
        (Int.le_refl _) (skipTxn_eq_some committed).2
  | project forward row rest decoded next decodes committed =>
      obtain ⟨_, _, _, -, -, -, -, -, -, upserted⟩ :=
        projectTxn_eq_some committed
      exact rewrites forward (forward.advancedTo row now) _ rfl rfl
        (Int.le_refl _) upserted
  | evict forward entry rest next committed =>
      obtain ⟨_, -, -, upserted⟩ := reorgTxn_eq_some committed
      exact rewrites forward (forward.reorgedTo entry now) _ rfl rfl
        (Int.le_max_left _ _) upserted
  | _ => exact ⟨current, isCurrent, Int.le_refl _⟩

theorem Indexing.Served.due_advance_le
    {world : Indexing Source Values}
    (served : world.Served options)
    (now : Int) :
    (world.advance system options now).due system options ≤
      world.due system options := by
  obtain ⟨current, isCurrent⟩ := served.current
  obtain ⟨next, isNext, later⟩ :=
    served.reorg_cursor_advance system now isCurrent
  have sublist :
      ((system.store world.source).due options next).Sublist
        ((system.store world.source).due options current) :=
    Store.due_sublist _ later
  unfold Indexing.due
  rw [isCurrent, isNext]
  exact sublist.length_le

/-- The list a reorg pass reads is a page of the due batches. -/
theorem mem_due_of_listed
    {store : Store}
    {cursor : HandlerCursor}
    {limit : Nat}
    {entry : ReorgEntry}
    (member :
      entry ∈ store.listReorgedAfter options.chainId
        options.handler.contentTag cursor.lastReorgInvalidatedAt limit) :
    entry ∈ store.due options cursor := by
  obtain ⟨⟨batch, stored, isEntry⟩, later⟩ :=
    mem_of_mem_listReorgedAfter member
  exact Store.mem_due.mpr
    ⟨List.mem_filterMap.mpr ⟨batch, stored, isEntry⟩, later⟩

/-- A served tick always reaches its reorg pass. -/
theorem leads_listingReorged
    {keeps : Indexing Source Values → Prop}
    (kept :
      ∀ world now, keeps world →
        keeps (world.advance system options now))
    (served : ∀ world, keeps world → world.Served options) :
    Leads (Indexing.advance system options)
      (fun world => keeps world ∧ world.stage = .idle)
      (fun world =>
        keeps world ∧
          ∃ forward, world.stage = .listingReorged forward) := by
  let listing (world : Indexing Source Values) : Prop :=
    keeps world ∧ ∃ forward, world.stage = .listing forward
  let projecting (world : Indexing Source Values) : Prop :=
    keeps world ∧ ∃ forward rows, world.stage = .projecting forward rows
  refine leads_after_step listing ?_
    (leads_after_step projecting ?_
      (leads_of_rank_step
        (WellFounded.prod_lex Nat.lt_wfRel.wf Nat.lt_wfRel.wf)
        (fun world => world.stage.rank) ?_))
  · rintro world now ⟨isKept, isIdle⟩
    obtain ⟨forward, current⟩ := (served world isKept).current
    refine ⟨kept world now isKept, forward, ?_⟩
    unfold Indexing.advance
    simp only [isIdle, tickAdvance, current]
  · rintro world now ⟨isKept, forward, isStage⟩
    refine ⟨kept world now isKept, forward,
      (system.store world.source).listConfirmedAfter options.chainId
        options.handler.contentTag forward.forward options.batchSize, ?_⟩
    unfold Indexing.advance
    simp only [isStage, tickAdvance]
  · rintro world now ⟨isKept, forward, rows, isStage⟩
    have next := kept world now isKept
    have current :=
      (served world isKept).forward forward (by rw [isStage]; rfl)
    have closer :
        Prod.Lex (· < ·) (· < ·)
          (world.advance system options now).stage.rank
          world.stage.rank :=
      rank_tickAdvance options (system.store world.source) world.db now
        (by rw [isStage]; exact TickStage.noConfusion)
    have move :=
      tickAdvance_move options (system.store world.source) world.db now
        world.stage
    have goesOn :
        (∃ forward, (world.advance system options now).stage =
            .listingReorged forward) ∨
          ∃ forward rows, (world.advance system options now).stage =
            .projecting forward rows := by
      unfold Indexing.advance
      rw [isStage] at move ⊢
      generalize (tickAdvance options (system.store world.source) world.db
        now (.projecting forward rows)).1 = nextDb at *
      generalize (tickAdvance options (system.store world.source) world.db
        now (.projecting forward rows)).2 = nextStage at *
      cases move with
      | projected _ | projectRefused _ _ _ _ _ _ =>
          exact .inl ⟨_, rfl⟩
      | skip _ _ _ _ _ _ | project _ _ _ _ _ _ _ =>
          exact .inr ⟨_, _, rfl⟩
      | skipRefused _ row _ _ refused =>
          obtain ⟨cursors, upserted⟩ :=
            HandlerCursors.upsertCursor_of_current current
              (show (forward.advancedTo row now).versionId =
                forward.versionId from rfl)
          simp [skipTxn, upserted] at refused
    rcases goesOn with reached | still
    · exact .inl ⟨next, reached⟩
    · exact .inr ⟨⟨next, still⟩, closer⟩

/-- No tick finds a reorged batch any more. -/
structure Indexing.Drained
    (system : SourceSystem Source Event)
    (options : TickOptions Decoded Values)
    (world : Indexing Source Values) : Prop where
  served : world.Served options
  noEntries : world.stage.entries = []
  noneDue : world.due system options = 0

/-- A drained generation has every reorged batch behind its cursor. -/
theorem Indexing.Drained.reached
    {world : Indexing Source Values}
    (drained : world.Drained system options)
    {current : HandlerCursor}
    (isCurrent : world.db.cursors.getCurrentCursor = some current)
    {entry : ReorgEntry}
    (isEntry :
      entry ∈ (system.store world.source).reorgEntries options) :
    entry.invalidatedAt ≤ current.lastReorgInvalidatedAt := by
  have none := drained.noneDue
  unfold Indexing.due at none
  rw [isCurrent] at none
  by_contra later
  have isDue := Store.mem_due.mpr ⟨isEntry, Int.not_le.mp later⟩
  rw [List.length_eq_zero_iff.mp none] at isDue
  cases isDue

theorem Indexing.Drained.advance
    {world : Indexing Source Values}
    (drained : world.Drained system options)
    (now : Int) :
    (world.advance system options now).Drained system options := by
  refine ⟨drained.served.advance now, ?_,
    Nat.le_zero.mp
      (drained.noneDue ▸ drained.served.due_advance_le now)⟩
  have noEntries := drained.noEntries
  have reached := @drained.reached
  have forward := drained.served.forward
  have move :=
    tickAdvance_move options (system.store world.source) world.db now
      world.stage
  obtain ⟨source, db, stage⟩ := world
  simp only [Indexing.advance] at move noEntries reached forward ⊢
  generalize (tickAdvance options (system.store source) db now
    stage).1 = nextDb at *
  generalize (tickAdvance options (system.store source) db now
    stage).2 = nextStage at *
  cases move with
  | listReorged current =>
      refine List.eq_nil_iff_forall_not_mem.mpr fun entry member => ?_
      obtain ⟨isEntry, later⟩ :=
        Store.mem_due.mp (mem_due_of_listed member)
      exact absurd (reached (forward current rfl) isEntry)
        (Int.not_le.mpr later)
  | evict _ _ _ _ _ =>
      cases noEntries
  | _ => rfl

/-- A served tick evicts the next batch it has read. -/
theorem Indexing.Served.evicts
    {world : Indexing Source Values}
    (served : world.Served options)
    {forward : HandlerCursor}
    {entry : ReorgEntry}
    {rest : List ReorgEntry}
    (isStage : world.stage = .reorging forward (entry :: rest))
    (now : Int) :
    (world.advance system options now).db.cursors.getCurrentCursor =
      some (forward.reorgedTo entry now) := by
  have current := served.forward forward (by rw [isStage]; rfl)
  have isCurrent : (forward.reorgedTo entry now).isCurrent = true :=
    (HandlerCursors.getCurrentCursor_eq_some_iff.mp current).2
  obtain ⟨cursors, upserted⟩ :=
    HandlerCursors.upsertCursor_of_current current
      (show (forward.reorgedTo entry now).versionId = forward.versionId
        from rfl)
  obtain ⟨table, isTable⟩ := served.table
  unfold Indexing.advance
  simp only [isStage, tickAdvance, reorgOne, reorgTxn, isTable,
    HandlerSchema.onReorg, upserted, Option.map_some]
  exact HandlerCursors.getCurrentCursor_upsertCursor upserted isCurrent

/-- Ticks read every reorged batch. -/
theorem leads_drained
    (positive : 0 < options.batchSize) :
    Leads (Indexing.advance system options)
      (fun world => world.Served options)
      (fun world => world.Drained system options) := by
  refine leads_of_rank Nat.lt_wfRel.wf
    (fun world => world.due system options) fun bound => ?_
  let upTo (world : Indexing Source Values) : Prop :=
    world.Served options ∧ world.due system options ≤ bound
  have kept :
      ∀ world now, upTo world →
        upTo (world.advance system options now) :=
    fun world now isUpTo =>
      ⟨isUpTo.1.advance now,
        Nat.le_trans (isUpTo.1.due_advance_le now) isUpTo.2⟩
  let evicts (world : Indexing Source Values) : Prop :=
    upTo world ∧ ∃ forward entry rest,
      world.stage = .reorging forward (entry :: rest) ∧
        entry ∈ (system.store world.source).due options forward
  refine (leads_of_imp fun world isBound =>
    (⟨isBound.1, Nat.le_of_eq isBound.2⟩ : upTo world)).trans
      ((leads_idle kept).trans ((leads_listingReorged kept
        (fun world isUpTo => isUpTo.1)).trans ?_))
  refine leads_by_cases (fun world => world.due system options = 0)
    (leads_of_imp ?_)
    (leads_after_step evicts ?_ (leads_of_step ?_))
  · rintro world ⟨⟨isUpTo, forward, isStage⟩, none⟩
    exact .inl ⟨isUpTo.1, by rw [isStage]; rfl, none⟩
  · rintro world now ⟨⟨isUpTo, forward, isStage⟩, some⟩
    have current := isUpTo.1.forward forward (by rw [isStage]; rfl)
    unfold Indexing.due at some
    rw [current] at some
    obtain ⟨entry, isDue⟩ :=
      List.exists_mem_of_length_pos (Nat.pos_of_ne_zero some)
    obtain ⟨isEntry, later⟩ := Store.mem_due.mp isDue
    obtain ⟨batch, stored, ofBatch⟩ := List.mem_filterMap.mp isEntry
    obtain ⟨first, rest, isList⟩ :=
      List.exists_cons_of_ne_nil
        (listReorgedAfter_ne_nil positive stored ofBatch later)
    have firstDue :
        first ∈ (system.store world.source).due options forward :=
      mem_due_of_listed (isList ▸ List.mem_cons_self)
    refine ⟨kept world now isUpTo, forward, first, rest, ?_, firstDue⟩
    unfold Indexing.advance
    simp only [isStage, tickAdvance, isList]
  · rintro world now ⟨isUpTo, forward, entry, rest, isStage, isDue⟩
    have current := isUpTo.1.forward forward (by rw [isStage]; rfl)
    have fewer :
        (world.advance system options now).due system options <
          world.due system options := by
      unfold Indexing.due
      rw [current, isUpTo.1.evicts isStage now]
      exact Store.due_length_lt isDue (Int.le_max_right _ _)
    exact .inr ⟨isUpTo.1.advance now,
      Nat.lt_of_lt_of_le fewer isUpTo.2⟩

end Eviction

/-- An indexer and the batches with a projection after their last eviction. -/
structure Owing (Source Values : Type) where
  indexing : Indexing Source Values
  owed : List Bytes32

section Owed

variable {Source Event Decoded Values : Type}
variable (system : SourceSystem Source Event)
variable (options : TickOptions Decoded Values)

/-- The batches owed after the next transaction of the tick. -/
def Indexing.owedAfter
    (world : Indexing Source Values)
    (now : Int)
    (owed : List Bytes32) : List Bytes32 :=
  match world.stage with
  | .projecting forward (row :: _) =>
      match options.handler.decode row.contents with
      | none => owed
      | some decoded =>
          match projectTxn options.handler world.db forward row decoded
              now with
          | none => owed
          | some _ => row.batchRef.toList ++ owed
  | .reorging forward (entry :: _) =>
      match reorgTxn world.db forward entry now with
      | none => owed
      | some _ => owed.filter fun txHash => txHash ≠ entry.txHash
  | _ => owed

/-- The next transaction of the tick. -/
def Owing.advance
    (world : Owing Source Values)
    (now : Int) : Owing Source Values where
  indexing := world.indexing.advance system options now
  owed := world.indexing.owedAfter options now world.owed

def owingStep
    (world : Owing Source Values)
    (event : IndexingEvent Event) : Option (Owing Source Values) :=
  (indexingStep system options world.indexing event).map fun indexing =>
    { indexing
      owed :=
        match event with
        | .advance now => world.indexing.owedAfter options now world.owed
        | _ => world.owed }

/-- A reorged batch at or below the reorg cursor that is owed an eviction. -/
def Overdue
    (store : Store)
    (cursor : HandlerCursor)
    (owed : List Bytes32)
    (entry : ReorgEntry) : Prop :=
  entry ∈ store.reorgEntries options ∧
    entry.invalidatedAt ≤ cursor.lastReorgInvalidatedAt ∧
    entry.txHash ∈ owed

/-- The batch of an entry is on a list. -/
def OnList
    (entries : List ReorgEntry)
    (entry : ReorgEntry) : Prop :=
  ∃ listed ∈ entries, listed.txHash = entry.txHash

/-- Every owed batch at or below the cursor is on the list of the tick in
progress. -/
def Owing.NothingMissed
    (world : Owing Source Values) : Prop :=
  ∀ current,
    world.indexing.db.cursors.getCurrentCursor = some current →
    ∀ entry,
      Overdue options (system.store world.indexing.source) current
        world.owed entry →
      OnList world.indexing.stage.entries entry

/-- A write marks no owed batch at or below the cursor, unless the batch is on
the list of the tick in progress. -/
def Owing.MarkAllowed
    (world : Owing Source Values)
    (event : Event) : Prop :=
  ∀ source,
    system.step world.indexing.source event = some source →
    ∀ current,
      world.indexing.db.cursors.getCurrentCursor = some current →
      ∀ entry ∈ (system.store source).reorgEntries options,
        entry.invalidatedAt ≤ current.lastReorgInvalidatedAt →
        entry.txHash ∈ world.owed →
        (∃ before ∈
            (system.store world.indexing.source).reorgEntries options,
          before.invalidatedAt ≤ current.lastReorgInvalidatedAt ∧
            before.txHash = entry.txHash) ∨
          OnList world.indexing.stage.entries entry

/-- The batch of a row a tick projects is not marked at or below the
cursor. -/
def Owing.ProjectAllowed
    (world : Owing Source Values)
    (forward : HandlerCursor)
    (row : MessageRow) : Prop :=
  (options.handler.decode row.contents).isSome = true →
    ∀ entry ∈ (system.store world.indexing.source).reorgEntries options,
      entry.invalidatedAt ≤ forward.lastReorgInvalidatedAt →
      row.batchRef ≠ some entry.txHash

/-- Between the cursor and the batch a tick evicts there is no owed batch but
those on its list. -/
def Owing.PageAllowed
    (world : Owing Source Values)
    (forward : HandlerCursor)
    (entry : ReorgEntry)
    (rest : List ReorgEntry) : Prop :=
  ∀ other ∈ (system.store world.indexing.source).reorgEntries options,
    forward.lastReorgInvalidatedAt < other.invalidatedAt →
    other.invalidatedAt ≤ entry.invalidatedAt →
    other.txHash ∈ world.owed →
    OnList (entry :: rest) other

/-- The tick in progress can be cut here: no owed batch at or below the cursor
is on its list. -/
def Owing.NoneDropped
    (world : Owing Source Values) : Prop :=
  ∀ current,
    world.indexing.db.cursors.getCurrentCursor = some current →
    ∀ entry ∈ (system.store world.indexing.source).reorgEntries options,
      entry.invalidatedAt ≤ current.lastReorgInvalidatedAt →
      entry.txHash ∈ world.owed →
      ¬ OnList world.indexing.stage.entries entry

/-- What a transaction of the tick has to avoid. -/
def Owing.AdvanceAllowed
    (world : Owing Source Values) : Prop :=
  match world.indexing.stage with
  | .projecting forward (row :: _) =>
      world.ProjectAllowed system options forward row
  | .reorging forward (entry :: rest) =>
      world.PageAllowed system options forward entry rest
  | _ => True

/-- What a step has to avoid. -/
def evictionAllows
    (world : Owing Source Values) : IndexingEvent Event → Prop
  | .source event => world.MarkAllowed system options event
  | .advance _ => world.AdvanceAllowed system options
  | .fault => world.NoneDropped system options
  | .stop => world.NoneDropped system options

section Decide

instance decidableOnList
    (entries : List ReorgEntry)
    (entry : ReorgEntry) :
    Decidable (OnList entries entry) :=
  inferInstanceAs (Decidable (∃ listed ∈ entries, _))

instance decidableProjectAllowed
    (world : Owing Source Values)
    (forward : HandlerCursor)
    (row : MessageRow) :
    Decidable (world.ProjectAllowed system options forward row) :=
  inferInstanceAs (Decidable (_ → ∀ entry ∈ Store.reorgEntries _ _, _))

instance decidablePageAllowed
    (world : Owing Source Values)
    (forward : HandlerCursor)
    (entry : ReorgEntry)
    (rest : List ReorgEntry) :
    Decidable (world.PageAllowed system options forward entry rest) :=
  inferInstanceAs (Decidable (∀ other ∈ Store.reorgEntries _ _, _))

instance decidableOwingAdvanceAllowed
    (world : Owing Source Values) :
    Decidable (world.AdvanceAllowed system options) :=
  match stage : world.indexing.stage with
  | .projecting forward (row :: _) =>
      decidable_of_iff (world.ProjectAllowed system options forward row)
        (by simp only [Owing.AdvanceAllowed, stage])
  | .reorging forward (entry :: rest) =>
      decidable_of_iff
        (world.PageAllowed system options forward entry rest)
        (by simp only [Owing.AdvanceAllowed, stage])
  | .idle | .listing _ | .listingReorged _ =>
      .isTrue (by simp only [Owing.AdvanceAllowed, stage])
  | .projecting _ [] | .reorging _ [] =>
      .isTrue (by simp only [Owing.AdvanceAllowed, stage])

instance decidableNoneDropped
    (world : Owing Source Values) :
    Decidable (world.NoneDropped system options) :=
  inferInstanceAs (Decidable (∀ current,
    world.indexing.db.cursors.getCurrentCursor = some current →
    ∀ entry ∈ Store.reorgEntries _ _, _))

instance decidableEvictionAllows
    (world : Owing Source Values)
    (event : IndexingEvent Event) :
    Decidable (evictionAllows system options world event) :=
  match event with
  | .source event =>
      @decidableOfSome _ (system.step world.indexing.source event) _
        fun source =>
          @decidableOfSome _
            world.indexing.db.cursors.getCurrentCursor _ fun current =>
              inferInstanceAs (Decidable
                (∀ entry ∈ (system.store source).reorgEntries options,
                  entry.invalidatedAt ≤ current.lastReorgInvalidatedAt →
                  entry.txHash ∈ world.owed → _))
  | .advance _ =>
      inferInstanceAs (Decidable (world.AdvanceAllowed system options))
  | .fault => inferInstanceAs (Decidable (world.NoneDropped system options))
  | .stop => inferInstanceAs (Decidable (world.NoneDropped system options))

end Decide

variable {system options}

/-- Where the list may be dropped, nothing is overdue. -/
theorem Owing.NothingMissed.cut
    {world next : Owing Source Values}
    (good : world.NothingMissed system options)
    (noneDropped : world.NoneDropped system options)
    (sameSource : next.indexing.source = world.indexing.source)
    (sameCursors :
      next.indexing.db.cursors = world.indexing.db.cursors)
    (sameOwed : next.owed = world.owed) :
    next.NothingMissed system options := by
  intro current isCurrent entry overdue
  rw [sameCursors] at isCurrent
  rw [sameSource, sameOwed] at overdue
  exact absurd (good current isCurrent entry overdue)
    (noneDropped current isCurrent entry overdue.1 overdue.2.1 overdue.2.2)

/-- A step that changes no reorg cursor, no list and nothing that is owed. -/
theorem Owing.NothingMissed.of_same
    {world next : Owing Source Values}
    (good : world.NothingMissed system options)
    (sameSource : next.indexing.source = world.indexing.source)
    (sameCursor :
      ∀ current,
        next.indexing.db.cursors.getCurrentCursor = some current →
        ∃ before,
          world.indexing.db.cursors.getCurrentCursor = some before ∧
            before.lastReorgInvalidatedAt =
              current.lastReorgInvalidatedAt)
    (entries :
      ∀ entry ∈ world.indexing.stage.entries,
        entry ∈ next.indexing.stage.entries)
    (owed :
      ∀ current entry,
        world.indexing.db.cursors.getCurrentCursor = some current →
        Overdue options (system.store world.indexing.source) current
          next.owed entry →
        entry.txHash ∈ world.owed) :
    next.NothingMissed system options := by
  intro current isCurrent entry overdue
  obtain ⟨before, wasCurrent, sameReorg⟩ := sameCursor current isCurrent
  rw [sameSource] at overdue
  have wasOverdue :
      Overdue options (system.store world.indexing.source) before next.owed
        entry :=
    ⟨overdue.1, sameReorg ▸ overdue.2.1, overdue.2.2⟩
  obtain ⟨listed, member, sameTx⟩ :=
    good before wasCurrent entry
      ⟨overdue.1, wasOverdue.2.1, owed before entry wasCurrent wasOverdue⟩
  exact ⟨listed, entries listed member, sameTx⟩

/-- An allowed transaction of the tick misses nothing. -/
theorem Owing.NothingMissed.advance
    {world : Owing Source Values}
    (good : world.NothingMissed system options)
    (served : world.indexing.Served options)
    (allowed : world.AdvanceAllowed system options)
    (now : Int) :
    (world.advance system options now).NothingMissed system options := by
  have move :=
    tickAdvance_move options (system.store world.indexing.source)
      world.indexing.db now world.indexing.stage
  obtain ⟨⟨source, db, stage⟩, owed⟩ := world
  simp only [Owing.advance, Indexing.advance] at move ⊢
  generalize (tickAdvance options (system.store source) db now
    stage).1 = nextDb at *
  generalize (tickAdvance options (system.store source) db now
    stage).2 = nextStage at *
  have unmoved :
      ∀ current, db.cursors.getCurrentCursor = some current →
        ∃ before,
          db.cursors.getCurrentCursor = some before ∧
            before.lastReorgInvalidatedAt =
              current.lastReorgInvalidatedAt :=
    fun current isCurrent => ⟨current, isCurrent, rfl⟩
  have passed :
      ∀ forward row (next : IndexerDb Values),
        stage.forward? = some forward →
        db.cursors.upsertCursor (forward.advancedTo row now) =
          some next.cursors →
        ∀ current, next.cursors.getCurrentCursor = some current →
          ∃ before,
            db.cursors.getCurrentCursor = some before ∧
              before.lastReorgInvalidatedAt =
                current.lastReorgInvalidatedAt := by
    intro forward row next carries upserted current isCurrent
    have carried := served.forward forward carries
    have nextCurrent :=
      HandlerCursors.getCurrentCursor_upsertCursor upserted
        (show (forward.advancedTo row now).isCurrent = true from
          (HandlerCursors.getCurrentCursor_eq_some_iff.mp carried).2)
    cases nextCurrent.symm.trans isCurrent
    exact ⟨forward, carried, rfl⟩
  cases move with
  | absent _ | read _ _ | list _ | projected _ | listReorged _ | finish _ =>
      exact good.of_same rfl unmoved (fun _ member => absurd member List.not_mem_nil)
        fun _ _ _ overdue => overdue.2.2
  | skip forward row rest next undecodable committed =>
      refine good.of_same rfl
        (passed forward row _ rfl (skipTxn_eq_some committed).2)
        (fun _ member => absurd member List.not_mem_nil) fun _ _ _ overdue => ?_
      simpa only [Indexing.owedAfter, undecodable] using overdue.2.2
  | skipRefused forward row rest undecodable refused =>
      refine good.of_same rfl unmoved (fun _ member => absurd member List.not_mem_nil)
        fun _ _ _ overdue => ?_
      simpa only [Indexing.owedAfter, undecodable] using overdue.2.2
  | projectRefused forward row rest decoded decodes refused =>
      refine good.of_same rfl unmoved (fun _ member => absurd member List.not_mem_nil)
        fun _ _ _ overdue => ?_
      simpa only [Indexing.owedAfter, decodes, refused] using overdue.2.2
  | project forward row rest decoded next decodes committed =>
      obtain ⟨_, _, _, -, -, -, -, -, -, upserted⟩ :=
        projectTxn_eq_some committed
      refine good.of_same rfl (passed forward row _ rfl upserted)
        (fun _ member => absurd member List.not_mem_nil) fun current entry isCurrent overdue => ?_
      have owes := overdue.2.2
      simp only [Indexing.owedAfter, decodes, committed, List.mem_append,
        Option.mem_toList] at owes
      refine owes.resolve_left ?_
      cases (served.forward forward rfl).symm.trans isCurrent
      exact allowed (by rw [decodes]; rfl) entry overdue.1 overdue.2.1
  | evict forward entry rest next committed =>
      obtain ⟨_, -, -, upserted⟩ := reorgTxn_eq_some committed
      have carried := served.forward forward rfl
      have nextCurrent :=
        HandlerCursors.getCurrentCursor_upsertCursor upserted
          (show (forward.reorgedTo entry now).isCurrent = true from
            (HandlerCursors.getCurrentCursor_eq_some_iff.mp carried).2)
      intro current isCurrent other overdue
      cases nextCurrent.symm.trans isCurrent
      obtain ⟨isEntry, upTo, owes⟩ := overdue
      simp only [Indexing.owedAfter, committed, List.mem_filter,
        decide_eq_true_eq] at owes
      have onList : OnList (entry :: rest) other := by
        by_cases old :
            other.invalidatedAt ≤ forward.lastReorgInvalidatedAt
        · exact good forward carried other ⟨isEntry, old, owes.1⟩
        · have isNew := Int.not_le.mp old
          refine allowed other isEntry isNew ?_ owes.1
          simp only [HandlerCursor.reorgedTo] at upTo
          omega
      obtain ⟨listed, member, sameTx⟩ := onList
      rcases List.mem_cons.mp member with rfl | isLater
      · exact absurd sameTx.symm owes.2
      · exact ⟨listed, isLater, sameTx⟩
  | evictRefused forward entry rest refused =>
      obtain ⟨table, isTable⟩ := served.table
      obtain ⟨cursors, upserted⟩ :=
        HandlerCursors.upsertCursor_of_current
          (served.forward forward rfl)
          (show (forward.reorgedTo entry now).versionId =
            forward.versionId from rfl)
      simp only at isTable upserted
      simp [reorgTxn, isTable, HandlerSchema.onReorg, upserted] at refused

/-- An allowed step misses nothing. -/
theorem nothingMissed_owingStep
    {world next : Owing Source Values}
    {event : IndexingEvent Event}
    (good : world.NothingMissed system options)
    (served : world.indexing.Served options)
    (allowed : evictionAllows system options world event)
    (taken : owingStep system options world event = some next) :
    next.NothingMissed system options := by
  obtain ⟨indexing, stepped, rfl⟩ := Option.map_eq_some_iff.mp taken
  cases event with
  | source event =>
      obtain ⟨source, written, rfl⟩ := Option.map_eq_some_iff.mp stepped
      intro current isCurrent entry overdue
      rcases allowed source written current isCurrent entry overdue.1
          overdue.2.1 overdue.2.2 with
        ⟨before, wasEntry, wasOverdue, sameTx⟩ | onList
      · obtain ⟨listed, member, ofListed⟩ :=
          good current isCurrent before
            ⟨wasEntry, wasOverdue, sameTx ▸ overdue.2.2⟩
        exact ⟨listed, member, ofListed.trans sameTx⟩
      · exact onList
  | advance now =>
      cases stepped
      exact good.advance served allowed now
  | fault =>
      cases stepped
      exact good.cut allowed rfl rfl rfl
  | stop =>
      cases stepped
      exact good.cut allowed rfl rfl rfl

/-- Every projected row belongs to an owed batch. -/
def Owing.Held (world : Owing Source Values) : Prop :=
  ∀ projected ∈ world.indexing.db.schema.rows,
    projected.batchRef ∈ world.owed

theorem Owing.Held.advance
    {world : Owing Source Values}
    (held : world.Held)
    (now : Int) :
    (world.advance system options now).Held := by
  have move :=
    tickAdvance_move options (system.store world.indexing.source)
      world.indexing.db now world.indexing.stage
  obtain ⟨⟨source, db, stage⟩, owed⟩ := world
  simp only [Owing.advance, Indexing.advance] at move ⊢
  generalize (tickAdvance options (system.store source) db now
    stage).1 = nextDb at *
  generalize (tickAdvance options (system.store source) db now
    stage).2 = nextStage at *
  intro row member
  cases move with
  | absent _ | read _ _ | list _ | projected _ | listReorged _ | finish _ =>
      exact held row member
  | skip forward read rest next undecodable committed =>
      simp only [(skipTxn_eq_some committed).1] at member
      simpa only [Indexing.owedAfter, undecodable] using held row member
  | skipRefused forward read rest undecodable refused =>
      simpa only [Indexing.owedAfter, undecodable] using held row member
  | projectRefused forward read rest decoded decodes refused =>
      simpa only [Indexing.owedAfter, decodes, refused] using
        held row member
  | project forward read rest decoded next decodes committed =>
      obtain ⟨projected, table, stored, isProjected, isTable, -, sameRef,
        -, isNext, -⟩ := projectTxn_eq_some committed
      simp only [isNext, HandlerSchema.rows] at member
      simp only [Indexing.owedAfter, decodes, committed, List.mem_append,
        Option.mem_toList]
      rcases Table.mem_put.mp member with rfl | ⟨old, -⟩
      · rw [(projectRow_eq_some isProjected).2.1, sameRef]
        exact .inl rfl
      · exact .inr (held row (by
          simp only [isTable]
          exact old))
  | evict forward entry rest next committed =>
      obtain ⟨old, other⟩ := (mem_rows_reorgTxn committed row).mp member
      simp only [Indexing.owedAfter, committed, List.mem_filter,
        decide_eq_true_eq]
      exact ⟨held row old, other⟩
  | evictRefused forward entry rest refused =>
      simpa only [Indexing.owedAfter, refused] using held row member

theorem held_owingStep
    {world next : Owing Source Values}
    {event : IndexingEvent Event}
    (held : world.Held)
    (taken : owingStep system options world event = some next) :
    next.Held := by
  obtain ⟨indexing, stepped, rfl⟩ := Option.map_eq_some_iff.mp taken
  cases event with
  | source event =>
      obtain ⟨source, -, rfl⟩ := Option.map_eq_some_iff.mp stepped
      exact held
  | advance now =>
      cases stepped
      exact held.advance now
  | fault | stop =>
      cases stepped
      exact held

/-- What a drained generation owes, it owes for ever. -/
theorem Indexing.Drained.owes_forever
    {world : Owing Source Values}
    (drained : world.indexing.Drained system options)
    {txHash : Bytes32}
    (owes : txHash ∈ world.owed)
    (nows : ℕ → Int)
    (count : ℕ) :
    txHash ∈ (after (Owing.advance system options) nows world
      count).owed := by
  let keeps (world : Owing Source Values) : Prop :=
    world.indexing.Drained system options ∧ txHash ∈ world.owed
  have kept : ∀ world now, keeps world →
      keeps (world.advance system options now) := by
    rintro world now ⟨isDrained, isOwed⟩
    refine ⟨isDrained.advance now, ?_⟩
    have noEntries := isDrained.noEntries
    simp only [Owing.advance, Indexing.owedAfter]
    split
    · split
      · exact isOwed
      · split
        · exact isOwed
        · exact List.mem_append_right _ isOwed
    · rename_i isStage
      rw [isStage] at noEntries
      cases noEntries
    · exact isOwed
  have initially : keeps world := ⟨drained, owes⟩
  exact (after_keeps kept initially count :
    keeps (after (Owing.advance system options) nows world count)).2

/-- A generation that finds neither rows nor reorged batches has nothing to
avoid. -/
theorem Indexing.Drained.allowed_forever
    {world : Owing Source Values}
    (drained : world.indexing.Drained system options)
    (caughtUp : world.indexing.CaughtUp system options)
    (nows : ℕ → Int)
    (count : ℕ) :
    (after (Owing.advance system options) nows world
      count).AdvanceAllowed system options := by
  let keeps (world : Owing Source Values) : Prop :=
    world.indexing.Drained system options ∧
      world.indexing.CaughtUp system options
  have kept : ∀ world now, keeps world →
      keeps (world.advance system options now) :=
    fun world now both => ⟨both.1.advance now, both.2.advance now⟩
  have initially : keeps world := ⟨drained, caughtUp⟩
  obtain ⟨isDrained, isCaughtUp⟩ :
      keeps (after (Owing.advance system options) nows world count) :=
    after_keeps kept initially count
  have noEntries := isDrained.noEntries
  have noRows := isCaughtUp.noRows
  unfold Owing.AdvanceAllowed
  split
  · rename_i isStage
    rw [isStage] at noRows
    cases noRows
  · rename_i isStage
    rw [isStage] at noEntries
    cases noEntries
  · trivial

/-- After a run whose steps are all allowed, ticks leave no reorged batch owed
and none of its rows projected. -/
theorem eviction_complete
    {start final : Owing Source Values}
    {events : List (IndexingEvent Event)}
    (positive : 0 < options.batchSize)
    (served : start.indexing.Served options)
    (good : start.NothingMissed system options)
    (held : start.Held)
    (allowed :
      Runs.AllSteps (owingStep system options)
        (evictionAllows system options) start events)
    (executed :
      Runs.exec? (owingStep system options) start events = some final)
    (nows : ℕ → Int)
    (ticksAllowed :
      ∀ count,
        (after (Owing.advance system options) nows final
          count).AdvanceAllowed system options) :
    ∃ least, ∀ count, least ≤ count →
      ∀ entry ∈
          (system.store final.indexing.source).reorgEntries options,
        entry.txHash ∉
            (after (Owing.advance system options) nows final
              count).owed ∧
          ∀ projected ∈
              (after (Owing.advance system options) nows final
                count).indexing.db.schema.rows,
            projected.batchRef ≠ entry.txHash := by
  let kept (world : Owing Source Values) : Prop :=
    world.indexing.Served options ∧
      world.NothingMissed system options ∧ world.Held
  have all :
      Runs.AllStates (owingStep system options) kept start events := by
    refine Runs.allStates_of_invariant ?_ ⟨served, good, held⟩ allowed
    rintro world event next ⟨isServed, isGood, isHeld⟩ stepAllowed taken
    have nextHeld := held_owingStep isHeld taken
    have nextGood :=
      nothingMissed_owingStep isGood isServed stepAllowed taken
    obtain ⟨indexing, stepped, rfl⟩ := Option.map_eq_some_iff.mp taken
    exact ⟨served_indexingStep isServed stepped, nextGood, nextHeld⟩
  have quiet : ∀ count,
      kept (after (Owing.advance system options) nows final count) ∧
        (after (Owing.advance system options) nows final
          count).indexing =
          after (Indexing.advance system options) nows final.indexing
            count ∧
        (after (Owing.advance system options) nows final
          count).indexing.source = final.indexing.source := by
    intro count
    induction count with
    | zero =>
        exact ⟨all.final executed, rfl, rfl⟩
    | succ count inductionHypothesis =>
        obtain ⟨⟨isServed, isGood, isHeld⟩, same, sameSource⟩ :=
          inductionHypothesis
        exact ⟨⟨isServed.advance (nows count),
          isGood.advance isServed (ticksAllowed count) (nows count),
          isHeld.advance (nows count)⟩,
          congrArg (fun world : Indexing Source Values =>
            world.advance system options (nows count)) same, sameSource⟩
  obtain ⟨least, drained⟩ :=
    (leads_drained positive).forever
      (fun _ now isDrained => isDrained.advance now)
      (all.final executed).1 nows
  refine ⟨least, fun count later entry isEntry => ?_⟩
  obtain ⟨⟨-, isGood, isHeld⟩, same, sameSource⟩ := quiet count
  have isDrained := drained count later
  rw [← same] at isDrained
  have notOwed :
      entry.txHash ∉
        (after (Owing.advance system options) nows final count).owed := by
    intro owes
    obtain ⟨current, isCurrent⟩ := isDrained.served.current
    rw [← sameSource] at isEntry
    obtain ⟨listed, member, -⟩ :=
      isGood current isCurrent entry
        ⟨isEntry, isDrained.reached isCurrent isEntry, owes⟩
    rw [isDrained.noEntries] at member
    cases member
  exact ⟨notOwed, fun projected member sameTx =>
    notOwed (sameTx ▸ isHeld projected member)⟩

end Owed

end Bam
