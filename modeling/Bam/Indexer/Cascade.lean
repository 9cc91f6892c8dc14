import Bam.Indexer.Deployment
import Bam.Indexer.Eviction

namespace Bam

/-!
# Reorgs of the services reaching an indexer

Both watchers mark a batch with the time of the mark, so every reorged batch is
one a reorg pass can list.
-/

open Behaviors

/-- Every reorged batch tells when it was marked. -/
def World.ReorgedDated (world : World) : Prop :=
  ∀ key batch,
    world.store.batch? key = some batch →
    batch.status = .reorged →
    batch.invalidatedAt.isSome = true

/-- Marking a transaction dates its batches. -/
theorem reorgedDated_marked
    {world : World}
    {next : Store}
    {chainId : Nat}
    {txHash : Bytes32}
    {invalidatedAt : Int}
    (dated : world.ReorgedDated)
    (batches :
      ∀ key,
        next.batch? key =
          (world.store.batch? key).map fun other =>
            if other.isOf chainId txHash then
              other.markedReorged invalidatedAt
            else other)
    {key : BatchKey}
    {batch : BatchRow}
    (found : next.batch? key = some batch)
    (reorged : batch.status = .reorged) :
    batch.invalidatedAt.isSome = true := by
  rw [batches key] at found
  obtain ⟨old, isOld, isBatch⟩ := Option.map_eq_some_iff.mp found
  split at isBatch
  · rw [← isBatch]
    rfl
  · subst isBatch
    exact dated key old isOld reorged

theorem reorgedDated_systemStep
    {config : SystemConfig}
    {world next : World}
    {event : SystemEvent}
    (dated : world.ReorgedDated)
    (taken : systemStep config world event = some next) :
    next.ReorgedDated := by
  have unwritten :
      next.store.batches = world.store.batches → next.ReorgedDated := by
    intro same key batch found reorged
    rw [Store.batch?, same] at found
    exact dated key batch found reorged
  cases event with
  | shared event =>
      cases event with
      | poster event =>
          cases posterStep_cases taken with
          | quiet same | prepared _ _ _ same | sent _ _ _ _ same
          | phased _ _ _ same =>
              exact unwritten (congrArg Store.batches same.store)
          | ingested raw withinRateLimit now =>
              exact unwritten
                (batches_ingest config world raw withinRateLimit now)
          | confirmed isFound included committed =>
              intro key batch found reorged
              rcases batch?_confirmIncluded committed key with
                ⟨⟨after, isAfter, confirmed, -⟩, -⟩ | same
              · cases isAfter.symm.trans found
                cases confirmed.symm.trans reorged
              · rw [found, Option.map_some] at same
                obtain ⟨old, isOld, core⟩ :=
                  Option.map_eq_some_iff.mp same.symm
                have sameStatus : old.status = batch.status :=
                  (congrArg BatchRow.status core :)
                have sameDate : old.invalidatedAt = batch.invalidatedAt :=
                  (congrArg BatchRow.invalidatedAt core :)
                exact sameDate ▸ dated key old isOld
                  (sameStatus.trans reorged)
          | restarted =>
              exact unwritten rfl
          | watched stepped =>
              rcases watchStep_store stepped with
                ⟨same, -⟩ | ⟨judgement, invalidatedAt, ingestedAt,
                  onChain, -, -, marked, -⟩
              · exact unwritten (congrArg Store.batches same)
              · exact fun key batch =>
                  reorgedDated_marked dated fun key =>
                    batch?_reorgBatch marked key
          | chained canonical =>
              exact unwritten rfl
      | readerWatch action =>
          obtain ⟨outcome, stepped, rfl⟩ := readerWatchStep_cases taken
          rcases watchStep_store stepped with
            ⟨same, -⟩ | ⟨judgement, invalidatedAt, ingestedAt, onChain,
              -, -, marked, -⟩
          · exact unwritten (congrArg Store.batches same)
          · exact fun key batch =>
              reorgedDated_marked dated fun key =>
                Store.batch?_markReorged marked key
  | processBatch opts =>
      obtain ⟨store, stepped, rfl⟩ := systemStep_processBatch taken
      have recorded := readerStep_processBatch stepped
      cases isRead : readSegment config.libraries opts with
      | none =>
          rw [isRead] at recorded
          exact unwritten (congrArg Store.batches recorded)
      | some verified =>
          rw [isRead] at recorded
          intro key batch found reorged
          simp only [recorded.2, Store.batch?_recordBatch,
            Store.batch?_upsertBatch] at found
          split at found
          · cases found
            cases (world.store.status_merged _).symm.trans reorged
          · exact dated key batch found reorged

section Cascade

variable {Decoded Values : Type}

/-- Services that have not done anything and an indexer that has migrated. -/
def Owing.fresh
    (handlerVersion versionId : Nat)
    (now : Int) : Owing World Values where
  indexing := .fresh handlerVersion versionId now
  owed := []

/-- From some tick on every batch that is reorged has been evicted after its
last projection, and no projected row names it. -/
def EventuallyEvicted
    (config : SystemConfig)
    (options : TickOptions Decoded Values)
    (final : Owing World Values)
    (nows : ℕ → Int) : Prop :=
  ∃ least, ∀ count, least ≤ count →
    let world :=
      after (Owing.advance (serviceSource config) options) nows final count
    ∀ batch ∈ final.indexing.source.store.batches.rows,
      batch.status = .reorged →
      batch.chainId = config.chainId →
      batch.contentTag = options.handler.contentTag →
      batch.txHash ∉ world.owed ∧
        ∀ projected ∈ world.indexing.db.schema.rows,
          projected.batchRef ≠ batch.txHash

variable {config : SystemConfig}
variable {options : TickOptions Decoded Values}
variable {handlerVersion versionId : Nat}
variable {migratedAt : Int}

/-- The services date their marks while an indexer runs beside them. -/
theorem reorgedDated_owing
    {events : List (IndexingEvent SystemEvent)}
    {final : Owing World Values}
    (executed :
      Runs.exec? (owingStep (serviceSource config) options)
        (Owing.fresh handlerVersion versionId migratedAt) events =
          some final) :
    final.indexing.source.ReorgedDated := by
  let dated (world : Owing World Values) : Prop :=
    world.indexing.source.ReorgedDated
  have kept :
      ∀ {world event next}, dated world →
        owingStep (serviceSource config) options world event =
          some next →
        dated next := by
    intro world event next isDated taken
    obtain ⟨indexing, stepped, rfl⟩ := Option.map_eq_some_iff.mp taken
    cases event with
    | source event =>
        obtain ⟨source, written, rfl⟩ := Option.map_eq_some_iff.mp stepped
        exact reorgedDated_systemStep isDated written
    | advance _ | fault | stop =>
        cases stepped
        exact isDated
  have initially :
      dated (Owing.fresh handlerVersion versionId migratedAt) :=
    fun _ _ found => by cases found
  exact Runs.Reachable.invariant kept initially ⟨events, executed⟩

theorem served_owing
    {events : List (IndexingEvent SystemEvent)}
    {final : Owing World Values}
    (executed :
      Runs.exec? (owingStep (serviceSource config) options)
        (Owing.fresh handlerVersion versionId migratedAt) events =
          some final) :
    final.indexing.Served options := by
  let served (world : Owing World Values) : Prop :=
    world.indexing.Served options
  have kept :
      ∀ {world event next}, served world →
        owingStep (serviceSource config) options world event =
          some next →
        served next := by
    intro world event next isServed taken
    obtain ⟨indexing, stepped, rfl⟩ := Option.map_eq_some_iff.mp taken
    exact served_indexingStep isServed stepped
  have initially :
      served (Owing.fresh handlerVersion versionId migratedAt) :=
    served_fresh
  exact Runs.Reachable.invariant kept initially ⟨events, executed⟩

/-- The services keep their place while an indexer runs beside them. -/
theorem confirmedPlaced_owing
    {events : List (IndexingEvent SystemEvent)}
    {final : Owing World Values}
    (executed :
      Runs.exec? (owingStep (serviceSource config) options)
        (Owing.fresh handlerVersion versionId migratedAt) events =
          some final) :
    final.indexing.source.ConfirmedPlaced config := by
  let placed (world : Owing World Values) : Prop :=
    world.indexing.source.ConfirmedPlaced config
  have kept :
      ∀ {world event next}, placed world →
        owingStep (serviceSource config) options world event =
          some next →
        placed next := by
    intro world event next isPlaced taken
    obtain ⟨indexing, stepped, rfl⟩ := Option.map_eq_some_iff.mp taken
    exact confirmedPlaced_indexingStep isPlaced stepped
  have initially :
      placed (Owing.fresh handlerVersion versionId migratedAt) :=
    fun _ _ found => by cases found
  exact Runs.Reachable.invariant kept initially ⟨events, executed⟩

/-- A reorg pass can list every reorged batch of its tag. -/
theorem mem_reorgEntries
    {store : Store}
    {batch : BatchRow}
    (sameChain : options.chainId = config.chainId)
    (stored : batch ∈ store.batches.rows)
    (reorged : batch.status = .reorged)
    (ofChain : batch.chainId = config.chainId)
    (ofTag : batch.contentTag = options.handler.contentTag)
    (dated : batch.invalidatedAt.isSome = true) :
    ∃ entry ∈ store.reorgEntries options, entry.txHash = batch.txHash := by
  obtain ⟨invalidatedAt, isDate⟩ := Option.isSome_iff_exists.mp dated
  refine ⟨{ txHash := batch.txHash, invalidatedAt },
    List.mem_filterMap.mpr ⟨batch, stored, ?_⟩, rfl⟩
  rw [BatchRow.reorgEntry?, if_pos ⟨reorged, ofChain.trans sameChain.symm,
    ofTag⟩, isDate, Option.map_some]

/-- In a run of the services and an indexer whose steps are all allowed, ticks
evict every reorged batch once the writes have stopped. -/
theorem eventuallyEvicted_of_allowed
    {events : List (IndexingEvent SystemEvent)}
    {final : Owing World Values}
    (sameChain : options.chainId = config.chainId)
    (positive : 0 < options.batchSize)
    (allowed :
      Runs.AllSteps (owingStep (serviceSource config) options)
        (evictionAllows (serviceSource config) options)
        (Owing.fresh handlerVersion versionId migratedAt) events)
    (executed :
      Runs.exec? (owingStep (serviceSource config) options)
        (Owing.fresh handlerVersion versionId migratedAt) events =
          some final)
    (nows : ℕ → Int)
    (ticksAllowed :
      ∀ count,
        (after (Owing.advance (serviceSource config) options) nows final
          count).AdvanceAllowed (serviceSource config) options) :
    EventuallyEvicted config options final nows := by
  have nothing :
      (Owing.fresh handlerVersion versionId migratedAt :
        Owing World Values).NothingMissed (serviceSource config) options :=
    fun _ _ _ behind => absurd behind.1 List.not_mem_nil
  have held :
      (Owing.fresh handlerVersion versionId migratedAt :
        Owing World Values).Held :=
    fun _ member => absurd member List.not_mem_nil
  obtain ⟨least, complete⟩ :=
    eviction_complete positive served_fresh nothing held allowed executed
      nows ticksAllowed
  refine ⟨least, fun count later => ?_⟩
  intro world batch stored reorged ofChain ofTag
  obtain ⟨entry, isEntry, sameTx⟩ :=
    mem_reorgEntries sameChain stored reorged ofChain ofTag
      (reorgedDated_owing executed batch.key batch
        (Table.mem_rows_iff.mp stored) reorged)
  exact sameTx ▸ complete count later entry isEntry

end Cascade

/-- A batch of the Reader is projected, its transaction is dropped, and the next
ticks evict it. -/
def readThenDrop : List (IndexingEvent SystemEvent) :=
  readThenTick ++
    [.source (.shared (.readerWatch (.start 100))),
      .source (.shared (.readerWatch (.lookup .notFound))),
      .source (.shared (.readerWatch (.mark 5 0)))] ++
    tickOver 1

set_option synthInstance.maxSize 1000 in
/-- A dropped batch stays evicted. -/
theorem eventuallyEvicted_readThenDrop :
    ∃ final,
      Runs.exec? (owingStep (serviceSource sampleConfig) sampleTicks)
          (Owing.fresh 1 0 0) readThenDrop = some final ∧
        EventuallyEvicted sampleConfig sampleTicks final fun _ => 0 := by
  have view :
      (Runs.exec? (owingStep (serviceSource sampleConfig) sampleTicks)
        (Owing.fresh 1 0 0) readThenDrop).map
          (fun world =>
            (world.indexing.stage,
              world.indexing.ahead (serviceSource sampleConfig)
                sampleTicks,
              world.indexing.due (serviceSource sampleConfig)
                sampleTicks)) =
        some (.idle, 0, 0) := by
    decide +kernel
  obtain ⟨final, executed, isView⟩ := Option.map_eq_some_iff.mp view
  simp only [Prod.mk.injEq] at isView
  obtain ⟨isIdle, noneAhead, noneDue⟩ := isView
  have projects :
      ProjectsAll sampleTicks final.indexing.source.store :=
    fun _ _ _ _ _ _ => rfl
  have served := served_owing executed
  have caughtUp :
      final.indexing.CaughtUp (serviceSource sampleConfig) sampleTicks :=
    ⟨.of_idle served
        (projectable_of_projects (confirmedPlaced_owing executed) projects)
        isIdle,
      by rw [isIdle]; rfl, noneAhead⟩
  have drained :
      final.indexing.Drained (serviceSource sampleConfig) sampleTicks :=
    ⟨served, by rw [isIdle]; rfl, noneDue⟩
  exact ⟨final, executed,
    eventuallyEvicted_of_allowed rfl (by decide) (by decide +kernel)
      executed (fun _ => 0)
      (drained.allowed_forever caughtUp fun _ => 0)⟩

/-- The batch of another sender in the next transaction of the block. -/
def secondBatch : ProcessBatchOptions :=
  { sampleBatch 2 [4] with
    event := { (sampleBatch 2 [4]).event with txIndex := 1 }
    decodeAnswer := fun _ =>
      some ([{ sender := 8, nonce := 0, contents := [4] }], [1]) }

/-- Two projected batches are marked within one millisecond, and ticks read one
batch at a time. -/
def droppedTogether : List (IndexingEvent SystemEvent) :=
  [.source (.processBatch (sampleBatch 1 [3])),
    .source (.processBatch secondBatch)] ++
    tickOver 1 ++ tickOver 1 ++
    [.source (.shared (.readerWatch (.start 100))),
      .source (.shared (.readerWatch (.lookup .notFound))),
      .source (.shared (.readerWatch (.mark 5 0))),
      .source (.shared (.readerWatch (.lookup .notFound))),
      .source (.shared (.readerWatch (.mark 5 0)))] ++
    tickOver 1

/-- Ticks that read one row and one batch at a time. -/
def oneByOne : TickOptions Unit Unit :=
  { sampleTicks with batchSize := 1 }

set_option synthInstance.maxSize 1000 in
/-- The second of two batches marked at the same time is never evicted. -/
theorem tied_mark_never_evicted :
    ¬ ∀ (config : SystemConfig) (options : TickOptions Unit Unit)
        (events : List (IndexingEvent SystemEvent))
        (final : Owing World Unit) (nows : ℕ → Int),
        options.chainId = config.chainId →
        0 < options.batchSize →
        Runs.exec? (owingStep (serviceSource config) options)
          (Owing.fresh 1 0 0) events = some final →
        EventuallyEvicted config options final nows := by
  intro claim
  have view :
      (Runs.exec? (owingStep (serviceSource sampleConfig) oneByOne)
        (Owing.fresh 1 0 0) droppedTogether).map
          (fun world =>
            (world.indexing.stage,
              world.indexing.due (serviceSource sampleConfig) oneByOne,
              decide (2 ∈ world.owed),
              (world.indexing.source.store.batch? (1, 2, 5)).map
                fun batch =>
                  (batch.status, batch.txHash, batch.chainId,
                    batch.contentTag))) =
        some (.idle, 0, true, some (.reorged, 2, 1, 5)) := by
    decide +kernel
  obtain ⟨final, executed, isView⟩ := Option.map_eq_some_iff.mp view
  simp only [Prod.mk.injEq, decide_eq_true_eq] at isView
  obtain ⟨isIdle, noneDue, owes, batchView⟩ := isView
  obtain ⟨batch, found, facts⟩ := Option.map_eq_some_iff.mp batchView
  simp only [Prod.mk.injEq] at facts
  obtain ⟨reorged, ofTx, ofChain, ofTag⟩ := facts
  have drained :
      final.indexing.Drained (serviceSource sampleConfig) oneByOne :=
    ⟨served_owing executed, by rw [isIdle]; rfl, noneDue⟩
  obtain ⟨least, complete⟩ :=
    claim sampleConfig oneByOne droppedTogether final (fun _ => 0) rfl
      (by decide) executed
  refine (complete least (Nat.le_refl least) batch
    (Table.mem_of_get? found) reorged ofChain ofTag).1 ?_
  exact ofTx ▸ drained.owes_forever owes (fun _ => 0) least

end Bam
