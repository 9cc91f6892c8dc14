import Bam.Indexer.Forward
import Bam.System.Plans
import Bam.System.Receipts
import Bam.System.References

namespace Bam

/-!
# An indexer beside Poster and Reader

The indexer reads the store the two services write.  They confirm a row with
its place on chain, so every confirmed row of the tag is one a tick can list.
-/

open Behaviors

/-- The services as the source of an indexer. -/
def serviceSource
    (config : SystemConfig) : SourceSystem World SystemEvent where
  step := systemStep config
  store := World.store

/-- A row that tells its place on chain. -/
structure MessageRow.Placed
    (chainId : Nat)
    (row : MessageRow) : Prop where
  chain : row.chainId = some chainId
  identified : row.messageId.isSome = true
  attached : row.batchRef.isSome = true
  located : row.coord?.isSome = true

/-- Every confirmed row tells its place on chain. -/
def World.ConfirmedPlaced
    (config : SystemConfig)
    (world : World) : Prop :=
  ∀ key row,
    world.store.message? key = some row →
    row.status = .confirmed →
    row.Placed config.chainId

/-- A step of the Poster confirms rows with their place. -/
theorem confirmed_posterStep
    {config : SystemConfig}
    {world next : World}
    {event : PosterEvent}
    (taken : posterStep config world event = some next)
    {key : MessageKey}
    {row : MessageRow}
    (found : next.store.message? key = some row)
    (confirmed : row.status = .confirmed) :
    world.store.message? key = some row ∨ row.Placed config.chainId := by
  have unwritten :
      next.store = world.store →
        world.store.message? key = some row ∨
          row.Placed config.chainId := by
    intro same
    exact .inl (same ▸ found)
  cases posterStep_cases taken with
  | quiet same =>
      exact unwritten same.store
  | ingested raw withinRateLimit now =>
      rcases message?_ingest config world raw withinRateLimit now key
        with same | ⟨decoded, seq, -, -, -, isRow, -⟩
      · exact .inl (same ▸ found)
      · rw [isRow, Option.some.injEq] at found
        subst found
        cases confirmed
  | prepared read ticked nonempty same =>
      exact unwritten same.store
  | sent isFound isSent fresh unconfirmed same =>
      exact unwritten same.store
  | phased isFound leads arrived same =>
      exact unwritten same.store
  | confirmed isFound included committed =>
      rcases message?_confirmEntries committed key with
        same | ⟨entry, -, message, -, position, messageId, old, -, -, -,
          -, isRow⟩
      · exact .inl (same ▸ found)
      · rw [isRow, Option.some.injEq] at found
        subst found
        exact .inr ⟨rfl, rfl, rfl, rfl⟩
  | restarted =>
      exact unwritten rfl
  | watched stepped =>
      rcases watchStep_store stepped with
        ⟨same, -⟩ | ⟨judgement, invalidatedAt, ingestedAt, onChain, -, -,
          reorged, -⟩
      · exact unwritten same
      · exact .inl (message?_of_confirmed_reorgBatch reorged found
          confirmed)
  | chained canonical =>
      exact unwritten rfl

/-- A step of the services confirms rows with their place. -/
theorem confirmed_systemStep
    {config : SystemConfig}
    {world next : World}
    {event : SystemEvent}
    (taken : systemStep config world event = some next)
    {key : MessageKey}
    {row : MessageRow}
    (found : next.store.message? key = some row)
    (confirmed : row.status = .confirmed) :
    world.store.message? key = some row ∨ row.Placed config.chainId := by
  cases event with
  | shared event =>
      cases event with
      | poster event =>
          exact confirmed_posterStep taken found confirmed
      | readerWatch action =>
          obtain ⟨outcome, stepped, rfl⟩ := readerWatchStep_cases taken
          rcases watchStep_store stepped with
            ⟨same, -⟩ | ⟨judgement, invalidatedAt, ingestedAt, onChain,
              -, -, reorged, -⟩
          · exact .inl (same ▸ found)
          · exact .inl
              (message?_of_confirmed_markReorged reorged found
                confirmed).1
  | processBatch opts =>
      have ofChain : opts.chainId = config.chainId := by
        by_contra otherChain
        simp only [systemStep, if_neg otherChain] at taken
        cases taken
      obtain ⟨store, stepped, rfl⟩ := systemStep_processBatch taken
      have recorded := readerStep_processBatch stepped
      cases isRead : readSegment config.libraries opts with
      | none =>
          rw [isRead] at recorded
          exact .inl (recorded ▸ found)
      | some verified =>
          rw [isRead] at recorded
          simp only [recorded.2] at found
          rcases Store.message?_recordBatch world.store
              (opts.batchRow config.libraries verified)
              (opts.messageRows config.libraries verified) key with
            same | ⟨written, member, -, isWritten, -⟩
          · exact .inl (same ▸ found)
          · rw [isWritten, Option.some.injEq] at found
            subst found
            obtain ⟨entry, -, isRow⟩ := mem_messageRows.mp member
            obtain ⟨messageId, -, rfl⟩ := Option.map_eq_some_iff.mp isRow
            exact .inr ⟨congrArg some ofChain, rfl, rfl, rfl⟩

theorem confirmedPlaced_systemStep
    {config : SystemConfig}
    {world next : World}
    {event : SystemEvent}
    (placed : world.ConfirmedPlaced config)
    (taken : systemStep config world event = some next) :
    next.ConfirmedPlaced config := by
  intro key row found confirmed
  rcases confirmed_systemStep taken found confirmed with before | isPlaced
  · exact placed key row before confirmed
  · exact isPlaced

section Deployment

variable {Decoded Values : Type}

/-- The database of a handler migrated for the first time. -/
def IndexerDb.fresh
    (handlerVersion versionId : Nat)
    (now : Int) : IndexerDb Values where
  cursors := {
    table :=
      Table.empty.put (HandlerCursor.genesis handlerVersion versionId now)
    oneCurrent := by
      intro first isFirst second isSecond _ _
      rcases Table.mem_put.mp isFirst with rfl | ⟨member, -⟩
      · rcases Table.mem_put.mp isSecond with rfl | ⟨member, -⟩
        · rfl
        · cases member
      · cases member }
  schema := .posts Table.empty

/-- Services that have not done anything and an indexer that has migrated. -/
def Indexing.fresh
    (handlerVersion versionId : Nat)
    (now : Int) : Indexing World Values where
  source := World.initial
  db := .fresh handlerVersion versionId now
  stage := .idle

/-- `handler.project` throws for no confirmed row of its tag. -/
def ProjectsAll
    (options : TickOptions Decoded Values)
    (store : Store) : Prop :=
  ∀ row ∈ store.messages.rows,
    row.status = .confirmed →
    row.contentTag = options.handler.contentTag →
    ∀ decoded,
      options.handler.decode row.contents = some decoded →
      (options.handler.project row decoded).isSome = true

/-- From some tick on the current generation holds every confirmed row of the
tag whose contents decode. -/
def EventuallyComplete
    (config : SystemConfig)
    (options : TickOptions Decoded Values)
    (final : Indexing World Values)
    (nows : ℕ → Int) : Prop :=
  ∃ least, ∀ count, least ≤ count →
    let world :=
      after (Indexing.advance (serviceSource config) options) nows final
        count
    ∃ current,
      world.db.cursors.getCurrentCursor = some current ∧
        ∀ row ∈ final.source.store.messages.rows,
          row.status = .confirmed →
          row.contentTag = options.handler.contentTag →
          (options.handler.decode row.contents).isSome = true →
          world.db.Present current.versionId row

variable {config : SystemConfig}
variable {options : TickOptions Decoded Values}
variable {handlerVersion versionId : Nat}
variable {migratedAt : Int}

theorem served_fresh :
    (Indexing.fresh handlerVersion versionId migratedAt :
      Indexing World Values).Served options :=
  .of_no_rows ⟨_, rfl⟩ ⟨_, rfl⟩
    (fun _ carried => by cases carried) rfl

theorem confirmedPlaced_indexingStep
    {world next : Indexing World Values}
    {event : IndexingEvent SystemEvent}
    (placed : world.source.ConfirmedPlaced config)
    (taken :
      indexingStep (serviceSource config) options world event =
        some next) :
    next.source.ConfirmedPlaced config := by
  cases event with
  | source event =>
      obtain ⟨source, stepped, rfl⟩ := Option.map_eq_some_iff.mp taken
      exact confirmedPlaced_systemStep placed stepped
  | advance _ | fault | stop =>
      cases taken
      exact placed

/-- The services keep their place while an indexer runs beside them. -/
theorem confirmedPlaced_indexing
    {events : List (IndexingEvent SystemEvent)}
    {final : Indexing World Values}
    (executed :
      Runs.exec? (indexingStep (serviceSource config) options)
        (Indexing.fresh handlerVersion versionId migratedAt) events =
          some final) :
    final.source.ConfirmedPlaced config := by
  let placed (world : Indexing World Values) : Prop :=
    world.source.ConfirmedPlaced config
  have initially :
      placed (Indexing.fresh handlerVersion versionId migratedAt) :=
    fun _ _ found => by cases found
  exact Runs.Reachable.invariant
    (fun isPlaced taken => confirmedPlaced_indexingStep isPlaced taken)
    initially ⟨events, executed⟩

/-- A tick can list every confirmed row of its tag. -/
theorem isListed_of_placed
    {row : MessageRow}
    (sameChain : options.chainId = config.chainId)
    (placed : row.Placed config.chainId)
    (confirmed : row.status = .confirmed)
    (ofTag : row.contentTag = options.handler.contentTag) :
    row.isListed options.chainId options.handler.contentTag = true := by
  simp [MessageRow.isListed, confirmed, ofTag, placed.chain, sameChain,
    placed.located]

/-- A handler that projects what it decodes can project every listed row. -/
theorem projectable_of_projects
    {store : Store}
    (placed :
      ∀ key row,
        store.message? key = some row →
        row.status = .confirmed →
        row.Placed config.chainId)
    (projects : ProjectsAll options store) :
    Projectable options store := by
  intro row stored listed decoded decodes versionId
  have facts :
      row.status = .confirmed ∧
        row.contentTag = options.handler.contentTag := by
    simp only [MessageRow.isListed, Bool.and_eq_true,
      decide_eq_true_eq] at listed
    exact ⟨listed.1.1.1, listed.1.1.2⟩
  obtain ⟨confirmed, ofTag⟩ := facts
  have isPlaced :=
    placed row.key row (Table.mem_rows_iff.mp stored) confirmed
  obtain ⟨messageId, isId⟩ :=
    Option.isSome_iff_exists.mp isPlaced.identified
  obtain ⟨batchRef, isRef⟩ :=
    Option.isSome_iff_exists.mp isPlaced.attached
  obtain ⟨values, projected⟩ :=
    Option.isSome_iff_exists.mp
      (projects row stored confirmed ofTag decoded decodes)
  unfold IndexerHandler.projectRow
  rw [isId, isRef, projected]
  exact ⟨_, rfl⟩

/-- In a run of the services and an indexer whose steps are all allowed, ticks
without errors project every confirmed row of the tag that decodes once the
writes have stopped. -/
theorem eventuallyComplete_of_allowed
    {events : List (IndexingEvent SystemEvent)}
    {final : Indexing World Values}
    (sameChain : options.chainId = config.chainId)
    (positive : 0 < options.batchSize)
    (allowed :
      Runs.AllSteps (indexingStep (serviceSource config) options)
        (forwardAllows (serviceSource config) options)
        (Indexing.fresh handlerVersion versionId migratedAt) events)
    (executed :
      Runs.exec? (indexingStep (serviceSource config) options)
        (Indexing.fresh handlerVersion versionId migratedAt) events =
          some final)
    (projects : ProjectsAll options final.source.store)
    (nows : ℕ → Int)
    (ticksAllowed :
      ∀ count,
        (after (Indexing.advance (serviceSource config) options) nows final
          count).AdvanceAllowed (serviceSource config) options
            (nows count)) :
    EventuallyComplete config options final nows := by
  have placed := confirmedPlaced_indexing executed
  have nothing :
      (Indexing.fresh handlerVersion versionId migratedAt :
        Indexing World Values).NothingSkipped
          (serviceSource config) options :=
    fun _ _ _ passed => absurd passed.1 List.not_mem_nil
  obtain ⟨finalServed, -⟩ :=
    nothingSkipped_of_run served_fresh nothing allowed executed
  have served : ∀ count,
      (after (Indexing.advance (serviceSource config) options) nows final
        count).Served options :=
    after_keeps (fun _ now isServed => isServed.advance now) finalServed
  obtain ⟨least, complete⟩ :=
    forward_complete positive served_fresh nothing allowed executed
      (projectable_of_projects placed projects) nows ticksAllowed
  refine ⟨least, fun count later => ?_⟩
  obtain ⟨current, isCurrent⟩ := (served count).current
  refine ⟨current, isCurrent, ?_⟩
  intro row stored confirmed ofTag decodes
  have isPlaced :=
    placed row.key row (Table.mem_rows_iff.mp stored) confirmed
  exact complete count later current isCurrent row stored
    ⟨isListed_of_placed sameChain isPlaced confirmed ofTag, decodes⟩

end Deployment

/-- A handler that projects every message of tag 5. -/
def sampleHandler : IndexerHandler Unit Unit where
  contentTag := 5
  version := 1
  decode _ := some ()
  project _ _ := some ()
  onConflict _ new := new

def sampleTicks : TickOptions Unit Unit where
  chainId := 1
  handler := sampleHandler
  batchSize := 10

/-- The transactions of a tick that projects a number of rows. -/
def tickOver (rows : Nat) : List (IndexingEvent SystemEvent) :=
  List.replicate (rows + 5) (.advance 0)

/-- A batch of the Reader is projected by the next tick. -/
def readThenTick : List (IndexingEvent SystemEvent) :=
  .source (.processBatch (sampleBatch 1 [3])) :: tickOver 1

/-- A batch of the Reader stays projected. -/
theorem eventuallyComplete_readThenTick :
    ∃ final,
      Runs.exec? (indexingStep (serviceSource sampleConfig) sampleTicks)
          (Indexing.fresh 1 0 0) readThenTick = some final ∧
        EventuallyComplete sampleConfig sampleTicks final fun _ => 0 := by
  have view :
      (Runs.exec? (indexingStep (serviceSource sampleConfig) sampleTicks)
        (Indexing.fresh 1 0 0) readThenTick).map
          (fun world =>
            (world.stage,
              world.ahead (serviceSource sampleConfig) sampleTicks,
              world.source.store.batches.rows.map
                (BatchRow.reorgEntry? 1 5))) =
        some (.idle, 0, [none]) := by
    decide +kernel
  obtain ⟨final, executed, isView⟩ := Option.map_eq_some_iff.mp view
  simp only [Prod.mk.injEq] at isView
  obtain ⟨isIdle, noneAhead, entries⟩ := isView
  have projects : ProjectsAll sampleTicks final.source.store :=
    fun _ _ _ _ _ _ => rfl
  have served : final.Served sampleTicks :=
    Runs.Reachable.invariant
      (fun isServed taken => served_indexingStep isServed taken)
      served_fresh ⟨_, executed⟩
  have noneReorged :
      ∀ batch ∈ final.source.store.batches.rows,
        batch.reorgEntry? 1 5 = none := by
    intro batch stored
    have isEntry :
        batch.reorgEntry? 1 5 ∈
          final.source.store.batches.rows.map
            (BatchRow.reorgEntry? 1 5) :=
      List.mem_map_of_mem stored
    rw [entries] at isEntry
    exact List.mem_singleton.mp isEntry
  have atRest :
      final.AtRest (serviceSource sampleConfig) sampleTicks :=
    ⟨⟨.of_idle served
          (projectable_of_projects (confirmedPlaced_indexing executed)
            projects) isIdle,
        by rw [isIdle]; rfl, noneAhead⟩,
      noneReorged, by rw [isIdle]; rfl⟩
  exact ⟨final, executed,
    eventuallyComplete_of_allowed rfl (by decide) (by decide +kernel)
      executed projects (fun _ => 0) fun count =>
        (after_keeps (fun _ now isAtRest => isAtRest.advance now) atRest
          count).allowed 0⟩

/-- The batch of another sender in an earlier block. -/
def earlierBatch : ProcessBatchOptions :=
  { sampleBatch 2 [4] with
    event := { (sampleBatch 2 [4]).event with blockNumber := 95 }
    decodeAnswer := fun _ =>
      some ([{ sender := 8, nonce := 0, contents := [4] }], [1]) }

/-- The Poster confirms a batch of block 100 right after its receipt, a tick
projects it, and the Reader gets to block 95. -/
def confirmedThenEarlier : List (IndexingEvent SystemEvent) :=
  (confirmedRun
    { status := true, blockNumber := 100, transactionIndex := 0 }).map
      (fun event => .source (.shared (.poster event))) ++
    tickOver 1 ++ [.source (.processBatch earlierBatch)]

/-- `serviceSource` with the Poster's ticks planned only. -/
def planSource
    (config : SystemConfig) : SourceSystem World SystemEvent where
  step world
    | .shared (.poster event) => planStep config world event
    | event => systemStep config world event
  store := World.store

theorem serviceSource_eq_planSource
    {config : SystemConfig}
    (defaultFEs : config.capacityFEs = none)
    (defaultBytes : config.capacityBytes = none) :
    serviceSource config = planSource config := by
  unfold serviceSource planSource
  congr 1
  funext world event
  rcases event with (event | action) | opts
  · exact congrFun
      (congrFun (posterStep_eq_planStep defaultFEs defaultBytes) world)
      event
  · rfl
  · rfl

set_option synthInstance.maxSize 1000 in
/-- A row the Reader confirms below a row of the Poster is never projected. -/
theorem earlier_row_never_projected :
    ¬ ∀ (config : SystemConfig) (options : TickOptions Unit Unit)
        (events : List (IndexingEvent SystemEvent))
        (final : Indexing World Unit) (nows : ℕ → Int),
        options.chainId = config.chainId →
        0 < options.batchSize →
        Runs.exec? (indexingStep (serviceSource config) options)
          (Indexing.fresh 1 0 0) events = some final →
        ProjectsAll options final.source.store →
        EventuallyComplete config options final nows := by
  intro claim
  have view :
      (Runs.exec? (indexingStep (planSource sampleConfig) sampleTicks)
        (Indexing.fresh 1 0 0) confirmedThenEarlier).map
          (fun world =>
            (world.stage,
              world.ahead (planSource sampleConfig) sampleTicks,
              world.db.cursors.getCurrentCursor.map
                HandlerCursor.versionId,
              (world.source.store.message? (8, 0)).map fun row =>
                (row.status, row.contentTag,
                  decide (world.db.Present 0 row)))) =
        some (.idle, 0, some 0, some (.confirmed, 5, false)) := by
    decide +kernel
  obtain ⟨final, executed, isView⟩ := Option.map_eq_some_iff.mp view
  simp only [Prod.mk.injEq] at isView
  obtain ⟨isIdle, noneAhead, version, rowView⟩ := isView
  obtain ⟨current, isCurrent, ofVersion⟩ :=
    Option.map_eq_some_iff.mp version
  obtain ⟨row, found, facts⟩ := Option.map_eq_some_iff.mp rowView
  simp only [Prod.mk.injEq, decide_eq_false_iff_not] at facts
  obtain ⟨confirmed, ofTag, missing⟩ := facts
  have same : serviceSource sampleConfig = planSource sampleConfig :=
    serviceSource_eq_planSource rfl rfl
  rw [← same] at executed noneAhead
  have projects : ProjectsAll sampleTicks final.source.store :=
    fun _ _ _ _ _ _ => rfl
  have served : final.Served sampleTicks :=
    Runs.Reachable.invariant
      (fun isServed taken => served_indexingStep isServed taken)
      served_fresh ⟨_, executed⟩
  have caughtUp :
      final.CaughtUp (serviceSource sampleConfig) sampleTicks :=
    ⟨.of_idle served
        (projectable_of_projects (confirmedPlaced_indexing executed)
          projects) isIdle,
      by rw [isIdle]; rfl, noneAhead⟩
  obtain ⟨least, complete⟩ :=
    claim sampleConfig sampleTicks confirmedThenEarlier final (fun _ => 0)
      rfl (by decide) executed projects
  obtain ⟨later, isLater, all⟩ := complete least (Nat.le_refl least)
  obtain ⟨found', isFound', isMissing⟩ :=
    caughtUp.missing_forever isCurrent (ofVersion ▸ missing) (fun _ => 0)
      least
  cases isLater.symm.trans isFound'
  exact isMissing
    (all row (Table.mem_of_get? found) confirmed ofTag rfl)

end Bam
