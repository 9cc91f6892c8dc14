import Bam.Indexer.Tick
import Bam.Lib.Behaviors
import Bam.Lib.Runs

namespace Bam

/-!
# An indexer beside the writers of its source

One migrated indexer process and the services that write the store it reads.
The writers are any system with a store; a step is one of theirs, the next
transaction of the tick, a transaction that fails, or a crash.
-/

/-- What writes the store an indexer reads. -/
structure SourceSystem (Source Event : Type) where
  step : Source → Event → Option Source
  store : Source → Store

structure Indexing (Source Values : Type) where
  source : Source
  db : IndexerDb Values
  stage : TickStage

inductive IndexingEvent (Event : Type) where
  | source (event : Event)
  | advance (now : Int)
  /-- The next transaction of the tick fails. -/
  | fault
  /-- The process stops; it starts again with its next `advance`. -/
  | stop

section Step

variable {Source Event Decoded Values : Type}
variable (system : SourceSystem Source Event)
variable (options : TickOptions Decoded Values)

/-- The next transaction of the tick. -/
def Indexing.advance
    (world : Indexing Source Values)
    (now : Int) : Indexing Source Values :=
  { world with
    db := (tickAdvance options (system.store world.source) world.db now
      world.stage).1
    stage := (tickAdvance options (system.store world.source) world.db now
      world.stage).2 }

def indexingStep
    (world : Indexing Source Values) :
    IndexingEvent Event → Option (Indexing Source Values)
  | .source event =>
      (system.step world.source event).map fun source =>
        { world with source }
  | .advance now => some (world.advance system options now)
  | .fault =>
      some { world with stage := tickFault options.handler world.stage }
  | .stop => some { world with stage := .idle }

end Step

/-- The cursor a tick carries in memory. -/
def TickStage.forward? : TickStage → Option HandlerCursor
  | .idle => none
  | .listing forward => some forward
  | .projecting forward _ => some forward
  | .listingReorged forward => some forward
  | .reorging forward _ => some forward

/-- The rows a tick has read and not dealt with. -/
def TickStage.rows : TickStage → List MessageRow
  | .projecting _ rows => rows
  | _ => []

/-- The reorged batches a tick has read and not dealt with. -/
def TickStage.entries : TickStage → List ReorgEntry
  | .reorging _ entries => entries
  | _ => []

section Listing

variable {chainId : Nat} {contentTag : Bytes32}

theorem MessageRow.coord_of_isListed
    {row : MessageRow}
    (listed : row.isListed chainId contentTag = true) :
    ∃ coord, row.coord? = some coord := by
  unfold MessageRow.isListed at listed
  exact Option.isSome_iff_exists.mp (Bool.and_eq_true _ _ ▸ listed).2

theorem MessageRow.coordKey_of_coord
    {row : MessageRow}
    {coord : ChainCoord}
    (located : row.coord? = some coord) :
    row.coordKey = coord.sortKey := by
  unfold MessageRow.coordKey
  rw [located]

/-- The rows a forward pass reads. -/
theorem mem_of_mem_listConfirmedAfter
    {store : Store}
    {after : ChainCoord}
    {limit : Nat}
    {row : MessageRow}
    (member :
      row ∈ store.listConfirmedAfter chainId contentTag after limit) :
    row ∈ store.messages.rows ∧
      row.isListed chainId contentTag = true ∧
      after.sortKey < row.coordKey := by
  have isSelected := Table.mem_orderBy.mp (List.mem_of_mem_take member)
  obtain ⟨stored, listed⟩ := Table.mem_select.mp isSelected
  rw [Bool.and_eq_true] at listed
  obtain ⟨coord, located⟩ := MessageRow.coord_of_isListed listed.1
  rw [located, Option.any_some, ChainCoord.isBefore_iff] at listed
  rw [MessageRow.coordKey_of_coord located]
  exact ⟨stored, listed⟩

/-- A forward pass reads its rows in chain order. -/
theorem listConfirmedAfter_ordered
    (store : Store)
    (chainId : Nat)
    (contentTag : Bytes32)
    (after : ChainCoord)
    (limit : Nat) :
    (store.listConfirmedAfter chainId contentTag after limit).Pairwise
      fun first second => first.coordKey ≤ second.coordKey := by
  refine List.Pairwise.sublist (List.take_sublist _ _) ?_
  exact List.pairwise_insertionSort
    (fun first second : MessageRow => first.coordKey ≤ second.coordKey) _

/-- A forward pass with room for a row reads one if there is one. -/
theorem listConfirmedAfter_ne_nil
    {store : Store}
    {after : ChainCoord}
    {limit : Nat}
    (positive : 0 < limit)
    {row : MessageRow}
    (stored : row ∈ store.messages.rows)
    (listed : row.isListed chainId contentTag = true)
    (later : after.sortKey < row.coordKey) :
    store.listConfirmedAfter chainId contentTag after limit ≠ [] := by
  obtain ⟨coord, located⟩ := MessageRow.coord_of_isListed listed
  rw [MessageRow.coordKey_of_coord located] at later
  intro isEmpty
  have selected :
      row ∈ Table.orderBy MessageRow.coordKey
        (store.messages.select fun row =>
          row.isListed chainId contentTag &&
            row.coord?.any after.isBefore) := by
    refine Table.mem_orderBy.mpr (Table.mem_select.mpr ⟨stored, ?_⟩)
    rw [listed, located, Option.any_some, Bool.true_and,
      ChainCoord.isBefore_iff]
    exact later
  rcases List.take_eq_nil_iff.mp isEmpty with noRoom | isNil
  · exact absurd noRoom (Nat.ne_of_gt positive)
  · rw [isNil] at selected
    cases selected

/-- The batches a reorg pass reads. -/
theorem mem_of_mem_listReorgedAfter
    {store : Store}
    {afterInvalidatedAt : Int}
    {limit : Nat}
    {entry : ReorgEntry}
    (member :
      entry ∈ store.listReorgedAfter chainId contentTag
        afterInvalidatedAt limit) :
    (∃ batch ∈ store.batches.rows,
      batch.reorgEntry? chainId contentTag = some entry) ∧
      afterInvalidatedAt < entry.invalidatedAt := by
  have isSelected := Table.mem_orderBy.mp (List.mem_of_mem_take member)
  obtain ⟨isEntry, later⟩ := List.mem_filter.mp isSelected
  exact ⟨List.mem_filterMap.mp isEntry, of_decide_eq_true later⟩

/-- A reorg pass with room for a batch reads one if there is one. -/
theorem listReorgedAfter_ne_nil
    {store : Store}
    {afterInvalidatedAt : Int}
    {limit : Nat}
    (positive : 0 < limit)
    {batch : BatchRow}
    (stored : batch ∈ store.batches.rows)
    {entry : ReorgEntry}
    (isEntry : batch.reorgEntry? chainId contentTag = some entry)
    (later : afterInvalidatedAt < entry.invalidatedAt) :
    store.listReorgedAfter chainId contentTag afterInvalidatedAt limit ≠
      [] := by
  intro isEmpty
  have selected :
      entry ∈ Table.orderBy ReorgEntry.sortKey
        ((store.batches.rows.filterMap
          (BatchRow.reorgEntry? chainId contentTag)).filter fun entry =>
            afterInvalidatedAt < entry.invalidatedAt) :=
    Table.mem_orderBy.mpr (List.mem_filter.mpr
      ⟨List.mem_filterMap.mpr ⟨batch, stored, isEntry⟩,
        decide_eq_true later⟩)
  rcases List.take_eq_nil_iff.mp isEmpty with noRoom | isNil
  · exact absurd noRoom (Nat.ne_of_gt positive)
  · rw [isNil] at selected
    cases selected

/-- The cursor written for a listed row stands at the row. -/
theorem HandlerCursor.sortKey_advancedTo
    {row : MessageRow}
    (listed : row.isListed chainId contentTag = true)
    (forward : HandlerCursor)
    (now : Int) :
    (forward.advancedTo row now).forward.sortKey = row.coordKey := by
  obtain ⟨coord, located⟩ := MessageRow.coord_of_isListed listed
  rw [MessageRow.coordKey_of_coord located]
  unfold MessageRow.coord? at located
  split at located
  · rename_i isBlock isTx isIndex
    cases located
    simp [HandlerCursor.advancedTo, HandlerCursor.forward,
      ChainCoord.sortKey, isBlock, isTx, isIndex]
  · cases located

end Listing

/-- A generation holds a message. -/
def IndexerDb.Present
    {Values : Type}
    (db : IndexerDb Values)
    (versionId : Nat)
    (row : MessageRow) : Prop :=
  ∃ projected ∈ db.schema.rows,
    projected.versionId = versionId ∧
      row.messageId = some projected.messageId

section Serving

variable {Source Event Decoded Values : Type}
variable {system : SourceSystem Source Event}
variable {options : TickOptions Decoded Values}

/-- A projection adds its row and drops none. -/
theorem present_projectTxn
    {db next : IndexerDb Values}
    {forward : HandlerCursor}
    {row : MessageRow}
    {decoded : Decoded}
    {now : Int}
    (committed :
      projectTxn options.handler db forward row decoded now = some next) :
    next.Present forward.versionId row ∧
      ∀ versionId other,
        db.Present versionId other → next.Present versionId other := by
  obtain ⟨projected, table, stored, isProjected, isTable, sameKey, -, -,
    isNext, -⟩ := projectTxn_eq_some committed
  obtain ⟨isId, -, isVersion, -⟩ := projectRow_eq_some isProjected
  have version := congrArg Prod.fst sameKey
  have message := congrArg Prod.snd sameKey
  simp only [ProjectedRow.key] at version message
  have isStored : stored ∈ next.schema.rows := by
    rw [isNext]
    exact Table.mem_put.mpr (.inl rfl)
  constructor
  · refine ⟨stored, isStored, version.trans isVersion, ?_⟩
    rw [isId, message]
  · rintro versionId other ⟨old, member, ofVersion, ofMessage⟩
    rw [isTable] at member
    by_cases same : old.key = stored.key
    · refine ⟨stored, isStored, ?_, ?_⟩
      · exact (congrArg Prod.fst same).symm.trans ofVersion
      · rw [ofMessage]
        exact congrArg some (congrArg Prod.snd same)
    · refine ⟨old, ?_, ofVersion, ofMessage⟩
      rw [isNext]
      exact Table.mem_put.mpr (.inr ⟨member, same⟩)

/-- What an eviction leaves. -/
theorem mem_rows_reorgTxn
    {db next : IndexerDb Values}
    {forward : HandlerCursor}
    {entry : ReorgEntry}
    {now : Int}
    (committed : reorgTxn db forward entry now = some next)
    (projected : ProjectedRow Values) :
    projected ∈ next.schema.rows ↔
      projected ∈ db.schema.rows ∧ projected.batchRef ≠ entry.txHash := by
  obtain ⟨table, isTable, isNext, -⟩ := reorgTxn_eq_some committed
  rw [isTable, isNext]
  simp [HandlerSchema.rows, Table.deleteWhere]

/-- What every step of a migrated indexer keeps: the tick carries the current
generation, and the rows it still has to deal with lie in chain order at or
behind its cursor. -/
structure Indexing.Served
    (options : TickOptions Decoded Values)
    (world : Indexing Source Values) : Prop where
  table : ∃ table, world.db.schema = .posts table
  current :
    ∃ generation,
      world.db.cursors.getCurrentCursor = some generation
  forward :
    ∀ forward, world.stage.forward? = some forward →
      world.db.cursors.getCurrentCursor = some forward
  listed :
    ∀ row ∈ world.stage.rows,
      row.isListed options.chainId options.handler.contentTag = true
  ordered :
    world.stage.rows.Pairwise fun first second =>
      first.coordKey ≤ second.coordKey
  ahead :
    ∀ forward, world.stage.forward? = some forward →
      ∀ row ∈ world.stage.rows,
        forward.forward.sortKey ≤ row.coordKey

/-- A tick without rows left is served if it carries the current
generation. -/
theorem Indexing.Served.of_no_rows
    {world : Indexing Source Values}
    (table : ∃ table, world.db.schema = .posts table)
    (current :
      ∃ generation,
        world.db.cursors.getCurrentCursor = some generation)
    (forward :
      ∀ forward, world.stage.forward? = some forward →
        world.db.cursors.getCurrentCursor = some forward)
    (noRows : world.stage.rows = []) :
    world.Served options where
  table := table
  current := current
  forward := forward
  listed row member := by
    rw [noRows] at member
    cases member
  ordered := by
    rw [noRows]
    exact .nil
  ahead _ _ row member := by
    rw [noRows] at member
    cases member

/-- Passing a row keeps an indexer served. -/
theorem Indexing.Served.pass
    {world next : Indexing Source Values}
    {forward : HandlerCursor}
    {row : MessageRow}
    {rest : List MessageRow}
    {now : Int}
    (served : world.Served options)
    (isStage : world.stage = .projecting forward (row :: rest))
    (isNext : next.stage = .projecting (forward.advancedTo row now) rest)
    (table : ∃ table, next.db.schema = .posts table)
    (upserted :
      world.db.cursors.upsertCursor (forward.advancedTo row now) =
        some next.db.cursors) :
    next.Served options := by
  have current := served.forward forward (by rw [isStage]; rfl)
  have isCurrent : (forward.advancedTo row now).isCurrent = true :=
    (HandlerCursors.getCurrentCursor_eq_some_iff.mp current).2
  have nextCurrent :=
    HandlerCursors.getCurrentCursor_upsertCursor upserted isCurrent
  have listed := served.listed
  have ordered := served.ordered
  rw [isStage] at listed ordered
  obtain ⟨first, later⟩ := List.pairwise_cons.mp ordered
  have atRow :=
    HandlerCursor.sortKey_advancedTo
      (listed row List.mem_cons_self) forward now
  refine {
    table := table
    current := ⟨_, nextCurrent⟩
    forward := ?_
    listed := ?_
    ordered := ?_
    ahead := ?_ }
  · rw [isNext]
    rintro _ ⟨⟩
    exact nextCurrent
  · rw [isNext]
    exact fun other member =>
      listed other (List.mem_cons_of_mem row member)
  · rw [isNext]
    exact later
  · rw [isNext]
    rintro _ ⟨⟩ other member
    rw [atRow]
    exact first other member

/-- The tick's transactions keep an indexer served. -/
theorem Indexing.Served.advance
    {world : Indexing Source Values}
    (served : world.Served options)
    (now : Int) :
    (world.advance system options now).Served options := by
  have move :=
    tickAdvance_move options (system.store world.source) world.db now
      world.stage
  obtain ⟨source, db, stage⟩ := world
  simp only [Indexing.advance] at move ⊢
  generalize (tickAdvance options (system.store source) db now
    stage).1 = nextDb at *
  generalize (tickAdvance options (system.store source) db now
    stage).2 = nextStage at *
  have table := served.table
  have current := served.current
  cases move with
  | absent noCurrent =>
      exact served
  | read forward isCurrent =>
      refine .of_no_rows table current ?_ rfl
      rintro _ ⟨⟩
      exact isCurrent
  | list forward =>
      exact {
        table := table
        current := current
        forward := served.forward
        listed := fun row member =>
          (mem_of_mem_listConfirmedAfter member).2.1
        ordered := listConfirmedAfter_ordered _ _ _ _ _
        ahead := fun _ isForward row member => by
          cases isForward
          exact le_of_lt (mem_of_mem_listConfirmedAfter member).2.2 }
  | projected forward =>
      exact .of_no_rows table current served.forward rfl
  | skip forward row rest next undecodable committed =>
      obtain ⟨sameSchema, upserted⟩ := skipTxn_eq_some committed
      exact served.pass rfl rfl (sameSchema ▸ table) upserted
  | skipRefused forward row rest undecodable refused =>
      exact .of_no_rows table current
        (fun _ carried => by cases carried) rfl
  | project forward row rest decoded next decodes committed =>
      obtain ⟨_, _, _, -, -, -, -, -, isNext, upserted⟩ :=
        projectTxn_eq_some committed
      exact served.pass rfl rfl ⟨_, isNext⟩ upserted
  | projectRefused forward row rest decoded decodes refused =>
      exact .of_no_rows table current served.forward rfl
  | listReorged forward =>
      exact .of_no_rows table current served.forward rfl
  | finish forward =>
      exact .of_no_rows table current
        (fun _ carried => by cases carried) rfl
  | evict forward entry rest next committed =>
      obtain ⟨_, -, isNext, upserted⟩ := reorgTxn_eq_some committed
      have isCurrent : (forward.reorgedTo entry now).isCurrent = true :=
        (HandlerCursors.getCurrentCursor_eq_some_iff.mp
          (served.forward forward rfl)).2
      have nextCurrent :=
        HandlerCursors.getCurrentCursor_upsertCursor upserted isCurrent
      refine .of_no_rows ⟨_, isNext⟩ ⟨_, nextCurrent⟩ ?_ rfl
      rintro _ ⟨⟩
      exact nextCurrent
  | evictRefused forward entry rest refused =>
      exact .of_no_rows table current
        (fun _ carried => by cases carried) rfl

/-- A failed transaction leaves no rows to deal with unless there were none. -/
theorem rows_tickFault
    (handler : IndexerHandler Decoded Values)
    (stage : TickStage) :
    (tickFault handler stage).rows = [] := by
  unfold tickFault
  split
  · split <;> rfl
  · rfl
  · rfl

/-- A failed transaction changes no cursor. -/
theorem forward?_tickFault
    (handler : IndexerHandler Decoded Values)
    {stage : TickStage}
    {forward : HandlerCursor}
    (carried : (tickFault handler stage).forward? = some forward) :
    stage.forward? = some forward := by
  unfold tickFault at carried
  split at carried
  · split at carried
    · exact carried
    · cases carried
  · exact carried
  · cases carried

/-- Every step keeps an indexer served. -/
theorem served_indexingStep
    {world next : Indexing Source Values}
    {event : IndexingEvent Event}
    (served : world.Served options)
    (taken : indexingStep system options world event = some next) :
    next.Served options := by
  cases event with
  | source event =>
      obtain ⟨source, -, rfl⟩ := Option.map_eq_some_iff.mp taken
      exact ⟨served.table, served.current, served.forward, served.listed,
        served.ordered, served.ahead⟩
  | advance now =>
      cases taken
      exact served.advance now
  | fault =>
      cases taken
      exact .of_no_rows served.table served.current
        (fun forward carried =>
          served.forward forward (forward?_tickFault _ carried))
        (rows_tickFault _ _)
  | stop =>
      cases taken
      exact .of_no_rows served.table served.current
        (fun _ carried => by cases carried) rfl

end Serving

end Bam
