import Bam.Indexer.Quiet

namespace Bam

/-!
# Completeness of the forward pass

The forward cursor is a chain coordinate, and rows become confirmed in an order
of their own.  A row at or below the cursor is never read again, so the pass is
complete where no row is passed over.  This module says what each step has to
avoid, and that ticks which avoid it project every confirmed row in the end.
-/

open Behaviors

section Forward

variable {Source Event Decoded Values : Type}

/-- A confirmed row of the handler's tag whose contents decode. -/
def Decodable
    (options : TickOptions Decoded Values)
    (row : MessageRow) : Prop :=
  row.isListed options.chainId options.handler.contentTag = true ∧
    (options.handler.decode row.contents).isSome = true

/-- A confirmed, decodable row at or below the cursor of the current
generation. -/
def Passed
    (options : TickOptions Decoded Values)
    (store : Store)
    (cursor : HandlerCursor)
    (row : MessageRow) : Prop :=
  row ∈ store.messages.rows ∧ Decodable options row ∧
    row.coordKey ≤ cursor.forward.sortKey

variable (system : SourceSystem Source Event)
variable (options : TickOptions Decoded Values)

/-- Every row at or below the cursor is projected, or still on the list of the
tick in progress. -/
def Indexing.NothingSkipped
    (world : Indexing Source Values) : Prop :=
  ∀ current,
    world.db.cursors.getCurrentCursor = some current →
    ∀ row,
      Passed options (system.store world.source) current row →
      world.db.Present current.versionId row ∨ row ∈ world.stage.rows

/-- The tick in progress can be cut here: what it would drop at or below the
cursor is projected. -/
def Indexing.NoneCut
    (world : Indexing Source Values) : Prop :=
  ∀ current,
    world.db.cursors.getCurrentCursor = some current →
    ∀ row ∈ world.stage.rows,
      Passed options (system.store world.source) current row →
      world.db.Present current.versionId row

/-- A write makes no row confirmed at or below the cursor, unless the row is
projected or on the list of the tick in progress. -/
def Indexing.WriteAllowed
    (world : Indexing Source Values)
    (event : Event) : Prop :=
  ∀ source,
    system.step world.source event = some source →
    ∀ current,
      world.db.cursors.getCurrentCursor = some current →
      ∀ row,
        Passed options (system.store source) current row →
        row ∉ (system.store world.source).messages.rows →
        world.db.Present current.versionId row ∨ row ∈ world.stage.rows

/-- Between the cursor and the row a tick passes there is no confirmed,
decodable row which the tick has not read and which is not projected. -/
def Indexing.PassAllowed
    (world : Indexing Source Values)
    (forward : HandlerCursor)
    (row : MessageRow)
    (rest : List MessageRow) : Prop :=
  ∀ other ∈ (system.store world.source).messages.rows,
    Decodable options other →
    forward.forward.sortKey < other.coordKey →
    other.coordKey ≤ row.coordKey →
    other ∈ row :: rest ∨ world.db.Present forward.versionId other

/-- No confirmed, decodable row at or below the cursor is held as a row of the
batch a tick evicts. -/
def Indexing.EvictAllowed
    (world : Indexing Source Values)
    (forward : HandlerCursor)
    (entry : ReorgEntry) : Prop :=
  ∀ row,
    Passed options (system.store world.source) forward row →
    ∀ projected ∈ world.db.schema.rows,
      projected.versionId = forward.versionId →
      row.messageId = some projected.messageId →
      projected.batchRef ≠ entry.txHash

/-- What a transaction of the tick has to avoid. -/
def Indexing.AdvanceAllowed
    (world : Indexing Source Values)
    (now : Int) : Prop :=
  match world.stage with
  | .projecting forward (row :: rest) =>
      world.PassAllowed system options forward row rest ∧
        (∀ decoded, options.handler.decode row.contents = some decoded →
          projectTxn options.handler world.db forward row decoded now =
            none →
          world.NoneCut system options)
  | .reorging forward (entry :: _) =>
      world.EvictAllowed system options forward entry
  | _ => True

/-- What a step has to avoid. -/
def forwardAllows
    (world : Indexing Source Values) : IndexingEvent Event → Prop
  | .source event => world.WriteAllowed system options event
  | .advance now => world.AdvanceAllowed system options now
  | .fault => world.NoneCut system options
  | .stop => world.NoneCut system options

section Decide

/-- A condition on the value of an option. -/
instance decidableOfSome
    {Value : Type}
    (option : Option Value)
    (holds : Value → Prop)
    [DecidablePred holds] :
    Decidable (∀ value, option = some value → holds value) :=
  match option with
  | none => .isTrue fun _ found => by cases found
  | some value =>
      decidable_of_iff (holds value)
        ⟨fun isTrue _ same => Option.some.inj same ▸ isTrue,
          fun all => all value rfl⟩

instance decidablePresent
    (db : IndexerDb Values)
    (versionId : Nat)
    (row : MessageRow) :
    Decidable (db.Present versionId row) :=
  inferInstanceAs (Decidable (∃ projected ∈ db.schema.rows, _))

instance decidableDecodable
    (row : MessageRow) :
    Decidable (Decodable options row) :=
  inferInstanceAs (Decidable (_ ∧ _))

/-- The rows at or below a cursor are some of the rows of the store. -/
instance decidableOfPassed
    (store : Store)
    (cursor : HandlerCursor)
    (holds : MessageRow → Prop)
    [DecidablePred holds] :
    Decidable (∀ row, Passed options store cursor row → holds row) :=
  decidable_of_iff
    (∀ row ∈ store.messages.rows,
      Decodable options row ∧ row.coordKey ≤ cursor.forward.sortKey →
        holds row)
    ⟨fun all row passed => all row passed.1 passed.2,
      fun all row stored passed => all row ⟨stored, passed⟩⟩

instance decidableNoneCut
    (world : Indexing Source Values) :
    Decidable (world.NoneCut system options) :=
  decidable_of_iff
    (∀ current,
      world.db.cursors.getCurrentCursor = some current →
      ∀ row, Passed options (system.store world.source) current row →
        row ∈ world.stage.rows → world.db.Present current.versionId row)
    ⟨fun all current isCurrent row onList passed =>
        all current isCurrent row passed onList,
      fun all current isCurrent row passed onList =>
        all current isCurrent row onList passed⟩

instance decidablePassAllowed
    (world : Indexing Source Values)
    (forward : HandlerCursor)
    (row : MessageRow)
    (rest : List MessageRow) :
    Decidable (world.PassAllowed system options forward row rest) :=
  inferInstanceAs (Decidable
    (∀ other ∈ (system.store world.source).messages.rows, _))

instance decidableEvictAllowed
    (world : Indexing Source Values)
    (forward : HandlerCursor)
    (entry : ReorgEntry) :
    Decidable (world.EvictAllowed system options forward entry) :=
  inferInstanceAs (Decidable
    (∀ row,
      Passed options (system.store world.source) forward row →
      ∀ projected ∈ world.db.schema.rows, _))

instance decidableAdvanceAllowed
    (world : Indexing Source Values)
    (now : Int) :
    Decidable (world.AdvanceAllowed system options now) :=
  match stage : world.stage with
  | .projecting forward (row :: rest) =>
      decidable_of_iff
        (world.PassAllowed system options forward row rest ∧
          (∀ decoded,
            options.handler.decode row.contents = some decoded →
            projectTxn options.handler world.db forward row decoded now =
              none →
            world.NoneCut system options))
        (by simp only [Indexing.AdvanceAllowed, stage])
  | .reorging forward (entry :: _) =>
      decidable_of_iff (world.EvictAllowed system options forward entry)
        (by simp only [Indexing.AdvanceAllowed, stage])
  | .idle | .listing _ | .listingReorged _ =>
      .isTrue (by simp only [Indexing.AdvanceAllowed, stage])
  | .projecting _ [] | .reorging _ [] =>
      .isTrue (by simp only [Indexing.AdvanceAllowed, stage])

instance decidableForwardAllows
    (world : Indexing Source Values)
    (event : IndexingEvent Event) :
    Decidable (forwardAllows system options world event) :=
  match event with
  | .source event =>
      inferInstanceAs (Decidable (∀ source,
        system.step world.source event = some source →
        ∀ current,
          world.db.cursors.getCurrentCursor = some current →
          ∀ row, Passed options (system.store source) current row →
            (row ∉ (system.store world.source).messages.rows →
              world.db.Present current.versionId row ∨
                row ∈ world.stage.rows)))
  | .advance now =>
      inferInstanceAs (Decidable (world.AdvanceAllowed system options now))
  | .fault => inferInstanceAs (Decidable (world.NoneCut system options))
  | .stop => inferInstanceAs (Decidable (world.NoneCut system options))

end Decide

variable {system options}

/-- Where the tick's list may be dropped, every passed row is projected. -/
theorem Indexing.NothingSkipped.present
    {world : Indexing Source Values}
    (good : world.NothingSkipped system options)
    (noneCut : world.NoneCut system options)
    {current : HandlerCursor}
    (isCurrent : world.db.cursors.getCurrentCursor = some current)
    {row : MessageRow}
    (passed : Passed options (system.store world.source) current row) :
    world.db.Present current.versionId row := by
  rcases good current isCurrent row passed with present | onList
  · exact present
  · exact noneCut current isCurrent row onList passed

/-- A tick that changes neither the database nor the rows it has to deal with
skips nothing. -/
theorem Indexing.NothingSkipped.of_same
    {world next : Indexing Source Values}
    (good : world.NothingSkipped system options)
    (sameSource : next.source = world.source)
    (sameDb : next.db = world.db)
    (rows : ∀ row ∈ world.stage.rows, row ∈ next.stage.rows) :
    next.NothingSkipped system options := by
  intro current isCurrent row passed
  rw [sameDb] at isCurrent ⊢
  rw [sameSource] at passed
  exact (good current isCurrent row passed).imp_right (rows row)

/-- Dropping the list where it may be cut skips nothing. -/
theorem Indexing.NothingSkipped.of_cut
    {world next : Indexing Source Values}
    (good : world.NothingSkipped system options)
    (noneCut : world.NoneCut system options)
    (sameSource : next.source = world.source)
    (sameDb : next.db = world.db) :
    next.NothingSkipped system options := by
  intro current isCurrent row passed
  rw [sameDb] at isCurrent ⊢
  rw [sameSource] at passed
  exact .inl (good.present noneCut isCurrent passed)

/-- Passing a row skips nothing where no other row lies in between. -/
theorem Indexing.NothingSkipped.pass
    {world next : Indexing Source Values}
    {forward : HandlerCursor}
    {row : MessageRow}
    {rest : List MessageRow}
    {now : Int}
    (good : world.NothingSkipped system options)
    (served : world.Served options)
    (isStage : world.stage = .projecting forward (row :: rest))
    (allowed : world.PassAllowed system options forward row rest)
    (sameSource : next.source = world.source)
    (isNext : next.stage = .projecting (forward.advancedTo row now) rest)
    (upserted :
      world.db.cursors.upsertCursor (forward.advancedTo row now) =
        some next.db.cursors)
    (keeps : ∀ versionId other,
      world.db.Present versionId other →
        next.db.Present versionId other)
    (own : Decodable options row →
      next.db.Present forward.versionId row) :
    next.NothingSkipped system options := by
  have isCurrent := served.forward forward (by rw [isStage]; rfl)
  have nextCurrent :=
    HandlerCursors.getCurrentCursor_upsertCursor upserted
      (show (forward.advancedTo row now).isCurrent = true from
        (HandlerCursors.getCurrentCursor_eq_some_iff.mp isCurrent).2)
  have listed := served.listed row (by
    rw [isStage]
    exact List.mem_cons_self)
  intro current found other passed
  rw [nextCurrent] at found
  cases found
  rw [sameSource] at passed
  obtain ⟨stored, decodable, upTo⟩ := passed
  rw [HandlerCursor.sortKey_advancedTo listed] at upTo
  have settled :
      other ∈ row :: rest ∨ world.db.Present forward.versionId other := by
    by_cases old : other.coordKey ≤ forward.forward.sortKey
    · rcases good forward isCurrent other ⟨stored, decodable, old⟩ with
        present | onList
      · exact .inr present
      · rw [isStage] at onList
        exact .inl onList
    · exact allowed other stored decodable (not_le.mp old) upTo
  rcases settled with onList | present
  · rcases List.mem_cons.mp onList with rfl | isLater
    · exact .inl (own decodable)
    · exact .inr (by
        rw [isNext]
        exact isLater)
  · exact .inl (keeps _ _ present)

/-- An allowed transaction of the tick skips nothing. -/
theorem Indexing.NothingSkipped.advance
    {world : Indexing Source Values}
    (good : world.NothingSkipped system options)
    (served : world.Served options)
    {now : Int}
    (allowed : world.AdvanceAllowed system options now) :
    (world.advance system options now).NothingSkipped system options := by
  have move :=
    tickAdvance_move options (system.store world.source) world.db now
      world.stage
  obtain ⟨source, db, stage⟩ := world
  simp only [Indexing.advance] at move ⊢
  generalize (tickAdvance options (system.store source) db now
    stage).1 = nextDb at *
  generalize (tickAdvance options (system.store source) db now
    stage).2 = nextStage at *
  cases move with
  | absent noCurrent =>
      exact good
  | read forward isCurrent =>
      exact good.of_same rfl rfl fun _ => id
  | list forward =>
      exact good.of_same rfl rfl
        fun _ member => absurd member List.not_mem_nil
  | projected forward =>
      exact good.of_same rfl rfl fun _ => id
  | skip forward row rest next undecodable committed =>
      obtain ⟨sameSchema, upserted⟩ := skipTxn_eq_some committed
      refine good.pass served rfl allowed.1 rfl rfl upserted
        (fun versionId other present => ?_) fun decodable => ?_
      · unfold IndexerDb.Present at present ⊢
        rw [sameSchema]
        exact present
      · have decodes := decodable.2
        rw [undecodable] at decodes
        cases decodes
  | skipRefused forward row rest undecodable refused =>
      obtain ⟨cursors, upserted⟩ :=
        HandlerCursors.upsertCursor_of_current
          (served.forward forward rfl)
          (show (forward.advancedTo row now).versionId =
            forward.versionId from rfl)
      simp [skipTxn, upserted] at refused
  | project forward row rest decoded next decodes committed =>
      obtain ⟨_, _, _, -, -, -, -, -, -, upserted⟩ :=
        projectTxn_eq_some committed
      obtain ⟨own, keeps⟩ := present_projectTxn committed
      exact good.pass served rfl allowed.1 rfl rfl upserted keeps
        fun _ => own
  | projectRefused forward row rest decoded decodes refused =>
      exact good.of_cut (allowed.2 decoded decodes refused) rfl rfl
  | listReorged forward =>
      exact good.of_same rfl rfl
        fun _ member => absurd member List.not_mem_nil
  | finish forward =>
      exact good.of_same rfl rfl
        fun _ member => absurd member List.not_mem_nil
  | evict forward entry rest next committed =>
      obtain ⟨_, -, -, upserted⟩ := reorgTxn_eq_some committed
      have isCurrent := served.forward forward rfl
      have nextCurrent :=
        HandlerCursors.getCurrentCursor_upsertCursor upserted
          (show (forward.reorgedTo entry now).isCurrent = true from
            (HandlerCursors.getCurrentCursor_eq_some_iff.mp isCurrent).2)
      intro current found row passed
      simp only at found
      rw [nextCurrent] at found
      cases found
      have wasPassed :
          Passed options (system.store source) forward row := passed
      rcases good forward isCurrent row wasPassed with present | onList
      · obtain ⟨projected, member, ofVersion, ofMessage⟩ := present
        exact .inl ⟨projected,
          (mem_rows_reorgTxn committed projected).mpr
            ⟨member, allowed row wasPassed projected member ofVersion
              ofMessage⟩, ofVersion, ofMessage⟩
      · cases onList
  | evictRefused forward entry rest refused =>
      exact good.of_same rfl rfl
        fun _ member => absurd member List.not_mem_nil

/-- An allowed step skips nothing. -/
theorem nothingSkipped_indexingStep
    {world next : Indexing Source Values}
    {event : IndexingEvent Event}
    (good : world.NothingSkipped system options)
    (served : world.Served options)
    (allowed : forwardAllows system options world event)
    (taken : indexingStep system options world event = some next) :
    next.NothingSkipped system options := by
  cases event with
  | source event =>
      obtain ⟨source, stepped, rfl⟩ := Option.map_eq_some_iff.mp taken
      intro current isCurrent row passed
      by_cases old : row ∈ (system.store world.source).messages.rows
      · exact good current isCurrent row ⟨old, passed.2⟩
      · exact allowed source stepped current isCurrent row passed old
  | advance now =>
      cases taken
      exact good.advance served allowed
  | fault =>
      cases taken
      exact good.of_cut allowed rfl rfl
  | stop =>
      cases taken
      exact good.of_cut allowed rfl rfl

/-- In a run whose steps are all allowed nothing is skipped. -/
theorem nothingSkipped_of_run
    {start final : Indexing Source Values}
    {events : List (IndexingEvent Event)}
    (served : start.Served options)
    (good : start.NothingSkipped system options)
    (allowed :
      Runs.AllSteps (indexingStep system options)
        (forwardAllows system options) start events)
    (executed :
      Runs.exec? (indexingStep system options) start events =
        some final) :
    final.Served options ∧ final.NothingSkipped system options := by
  let kept (world : Indexing Source Values) : Prop :=
    world.Served options ∧ world.NothingSkipped system options
  have all :
      Runs.AllStates (indexingStep system options) kept start events := by
    refine Runs.allStates_of_invariant ?_ ⟨served, good⟩ allowed
    intro world event next isGood stepAllowed taken
    exact ⟨served_indexingStep isGood.1 taken,
      nothingSkipped_indexingStep isGood.2 isGood.1 stepAllowed taken⟩
  exact all.final executed

/-- Where nothing is skipped and no row is left to read, every confirmed row
that decodes is projected. -/
theorem Indexing.CaughtUp.present
    {world : Indexing Source Values}
    (caughtUp : world.CaughtUp system options)
    (good : world.NothingSkipped system options)
    {current : HandlerCursor}
    (isCurrent : world.db.cursors.getCurrentCursor = some current)
    {row : MessageRow}
    (stored : row ∈ (system.store world.source).messages.rows)
    (decodable : Decodable options row) :
    world.db.Present current.versionId row := by
  have upTo := caughtUp.passed isCurrent stored decodable.1
  rcases good current isCurrent row ⟨stored, decodable, upTo⟩ with
    present | onList
  · exact present
  · rw [caughtUp.noRows] at onList
    cases onList

/-- A generation that has caught up and finds no reorged batch. -/
structure Indexing.AtRest
    (system : SourceSystem Source Event)
    (options : TickOptions Decoded Values)
    (world : Indexing Source Values) : Prop where
  caughtUp : world.CaughtUp system options
  noneReorged :
    ∀ batch ∈ (system.store world.source).batches.rows,
      batch.reorgEntry? options.chainId options.handler.contentTag = none
  noEntries : world.stage.entries = []

theorem Indexing.AtRest.advance
    {world : Indexing Source Values}
    (atRest : world.AtRest system options)
    (now : Int) :
    (world.advance system options now).AtRest system options := by
  refine ⟨atRest.caughtUp.advance now, atRest.noneReorged, ?_⟩
  have noneReorged := atRest.noneReorged
  have noEntries := atRest.noEntries
  have move :=
    tickAdvance_move options (system.store world.source) world.db now
      world.stage
  obtain ⟨source, db, stage⟩ := world
  simp only [Indexing.advance] at move noneReorged noEntries ⊢
  generalize (tickAdvance options (system.store source) db now
    stage).1 = nextDb at *
  generalize (tickAdvance options (system.store source) db now
    stage).2 = nextStage at *
  cases move with
  | listReorged forward =>
      refine List.eq_nil_iff_forall_not_mem.mpr fun entry member => ?_
      obtain ⟨⟨batch, stored, isEntry⟩, -⟩ :=
        mem_of_mem_listReorgedAfter member
      rw [noneReorged batch stored] at isEntry
      cases isEntry
  | evict _ _ _ _ _ =>
      cases noEntries
  | _ => rfl

/-- Ticks at rest have nothing to avoid. -/
theorem Indexing.AtRest.allowed
    {world : Indexing Source Values}
    (atRest : world.AtRest system options)
    (now : Int) :
    world.AdvanceAllowed system options now := by
  have noRows := atRest.caughtUp.noRows
  have noEntries := atRest.noEntries
  unfold Indexing.AdvanceAllowed
  split
  · rename_i isStage
    rw [isStage] at noRows
    cases noRows
  · rename_i isStage
    rw [isStage] at noEntries
    cases noEntries
  · trivial

/-- After a run whose steps are all allowed, ticks without errors project every
confirmed row that decodes, and keep it. -/
theorem forward_complete
    {start final : Indexing Source Values}
    {events : List (IndexingEvent Event)}
    (positive : 0 < options.batchSize)
    (served : start.Served options)
    (good : start.NothingSkipped system options)
    (allowed :
      Runs.AllSteps (indexingStep system options)
        (forwardAllows system options) start events)
    (executed :
      Runs.exec? (indexingStep system options) start events = some final)
    (projectable : Projectable options (system.store final.source))
    (nows : ℕ → Int)
    (ticksAllowed :
      ∀ count,
        (after (Indexing.advance system options) nows final
          count).AdvanceAllowed system options (nows count)) :
    ∃ least, ∀ count, least ≤ count →
      ∀ current,
        (after (Indexing.advance system options) nows final
          count).db.cursors.getCurrentCursor = some current →
        ∀ row ∈ (system.store final.source).messages.rows,
          Decodable options row →
          (after (Indexing.advance system options) nows final
            count).db.Present current.versionId row := by
  obtain ⟨finalServed, finalGood⟩ :=
    nothingSkipped_of_run served good allowed executed
  have all : ∀ count,
      (after (Indexing.advance system options) nows final count).Served
          options ∧
        (after (Indexing.advance system options) nows final
          count).NothingSkipped system options ∧
        (after (Indexing.advance system options) nows final
          count).source = final.source := by
    intro count
    induction count with
    | zero =>
        exact ⟨finalServed, finalGood, rfl⟩
    | succ count inductionHypothesis =>
        obtain ⟨served, good, same⟩ := inductionHypothesis
        exact ⟨served.advance (nows count),
          good.advance served (ticksAllowed count), same⟩
  obtain ⟨least, caughtUp⟩ :=
    (leads_caughtUp_of_served positive).forever
      (fun _ now isCaughtUp => isCaughtUp.advance now)
      ⟨finalServed, projectable⟩ nows
  refine ⟨least, fun count later current isCurrent row stored decodable =>
    ?_⟩
  exact (caughtUp count later).present (all count).2.1 isCurrent
    ((all count).2.2 ▸ stored) decodable

end Forward

end Bam
