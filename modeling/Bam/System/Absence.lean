import Bam.System.Steps

namespace Bam

/-!
# Marks and the canonical chain

Both watchers judge a batch dropped when `getTransactionBlock` answers `null`,
and both adapters answer `null` to an RPC failure as well.  A mark names a
transaction that is absent from the canonical chain in every run whose lookups
are answered and whose judged transactions stay absent until they are marked.
-/

/-- The batches judged dropped that are not marked yet. -/
def World.judgements (world : World) : List Judgement :=
  (world.posterWatch.bind WatchTick.judged).toList ++
    (world.readerWatch.bind WatchTick.judged).toList

/-- No lookup fails, and no transaction judged dropped returns to the chain
before it is marked. -/
def lookupsAllow
    (world : World) : SystemEvent → Bool
  | .shared (.poster (.watch action)) => action ≠ .lookup .rpcError
  | .shared (.readerWatch action) => action ≠ .lookup .rpcError
  | .shared (.poster (.chain canonical)) =>
      world.judgements.all fun judgement =>
        judgement.batch.txHash ∉ canonical
  | _ => true

/-- The reorged batch rows are of the given transactions. -/
def Store.ReorgedAmong
    (store : Store)
    (txHashes : List Bytes32) : Prop :=
  ∀ key batch,
    store.batch? key = some batch →
    batch.status = .reorged →
    batch.txHash ∈ txHashes

/-- The watchers marked only transactions that were absent from the chain, and
read no failure as absence. -/
structure World.MarksAbsent
    (world : World) : Prop where
  marks :
    ∀ mark ∈ world.marks, mark.onChain = false ∧ mark.answer ≠ .rpcError
  rows : world.store.ReorgedAmong world.marked

/-- A batch judged dropped is absent, and was not judged on a failure. -/
def Judgement.Holds
    (judgement : Judgement)
    (canonical : List Bytes32) : Prop :=
  judgement.batch.txHash ∉ canonical ∧ judgement.answer ≠ .rpcError

/-- What allowed steps keep. -/
structure World.JudgedAbsent
    (world : World) : Prop extends world.MarksAbsent where
  judged :
    ∀ judgement ∈ world.judgements, judgement.Holds world.canonical

theorem mem_judgements
    {world : World}
    {judgement : Judgement} :
    judgement ∈ world.judgements ↔
      world.posterWatch.bind WatchTick.judged = some judgement ∨
        world.readerWatch.bind WatchTick.judged = some judgement := by
  simp [World.judgements]

theorem judgedAbsent_initial : World.initial.JudgedAbsent where
  marks := by simp [World.initial]
  rows := by
    intro key batch found
    cases found
  judged := by
    intro judgement member
    cases member

/-- Marking a transaction adds it to those with reorged rows. -/
theorem Store.ReorgedAmong.marked
    {store next : Store}
    {txHashes : List Bytes32}
    {chainId : Nat}
    {txHash : Bytes32}
    {invalidatedAt : Int}
    (among : store.ReorgedAmong txHashes)
    (batches :
      ∀ key,
        next.batch? key =
          (store.batch? key).map fun other =>
            if other.isOf chainId txHash then
              other.markedReorged invalidatedAt
            else other) :
    next.ReorgedAmong (txHash :: txHashes) := by
  intro key batch found reorged
  rw [batches key] at found
  obtain ⟨old, isOld, rfl⟩ := Option.map_eq_some_iff.mp found
  by_cases ofTx : old.isOf chainId txHash = true
  · simp only [if_pos ofTx]
    exact List.mem_cons.mpr (.inl (BatchRow.isOf_iff.mp ofTx).2)
  · simp only [if_neg ofTx] at reorged ⊢
    exact List.mem_cons_of_mem txHash (among key old isOld reorged)

/-- Rows that only lose a link to their replacement, or become confirmed, add
no reorged transaction. -/
theorem Store.ReorgedAmong.confirmed
    {store next : Store}
    {txHashes : List Bytes32}
    (among : store.ReorgedAmong txHashes)
    (batches :
      ∀ key batch,
        next.batch? key = some batch →
        batch.status = .reorged →
        (next.batch? key).map BatchRow.withoutReplacement =
          (store.batch? key).map BatchRow.withoutReplacement) :
    next.ReorgedAmong txHashes := by
  intro key batch found reorged
  have same := batches key batch found reorged
  rw [found, Option.map_some] at same
  obtain ⟨old, isOld, core⟩ := Option.map_eq_some_iff.mp same.symm
  have sameStatus : old.status = batch.status :=
    (congrArg BatchRow.status core :)
  have sameTx : old.txHash = batch.txHash :=
    (congrArg BatchRow.txHash core :)
  rw [← sameTx]
  exact among key old isOld (sameStatus.trans reorged)

theorem Store.ReorgedAmong.confirmIncluded
    {config : SystemConfig}
    {store next : Store}
    {broadcast : Broadcast}
    {receipt : TransactionReceipt}
    {submittedAt : Int}
    {txHashes : List Bytes32}
    (among : store.ReorgedAmong txHashes)
    (committed :
      confirmIncluded config.keccak256 config.loop store
        (World.outcomeOf config broadcast receipt) submittedAt =
          .ok next) :
    next.ReorgedAmong txHashes := by
  apply among.confirmed
  intro key batch found reorged
  rcases batch?_confirmIncluded committed key with
    ⟨⟨other, isOther, confirmed, -⟩, -⟩ | same
  · rw [found, Option.some.injEq] at isOther
    rw [isOther, confirmed] at reorged
    cases reorged
  · exact same

theorem Store.ReorgedAmong.recordBatch
    {store : Store}
    {txHashes : List Bytes32}
    {batch : BatchRow}
    (among : store.ReorgedAmong txHashes)
    (confirmed : batch.status = .confirmed)
    (rows : List MessageRow) :
    (store.recordBatch batch rows).ReorgedAmong txHashes := by
  intro key other found reorged
  rcases Store.mem_batches_recordBatch.mp (Table.mem_of_get? found) with
    isMerged | ⟨member, -⟩
  · rw [isMerged, Store.status_merged, confirmed] at reorged
    cases reorged
  · exact among other.key other (Table.mem_rows_iff.mp member) reorged

/-- A watcher step that is answered keeps judgements absent and marks only what
is absent. -/
theorem watchStep_absent
    {world : World}
    {candidates : Nat → List BatchRow}
    {reorg : Int → Int → BatchRow → Except StoreError Store}
    {watch : Option WatchTick}
    {action : WatchAction}
    {outcome : WatchOutcome}
    {chainId : Nat}
    (stepped :
      watchStep world candidates reorg watch action = some outcome)
    (marks :
      ∀ {invalidatedAt ingestedAt batch next},
        reorg invalidatedAt ingestedAt batch = .ok next →
        ∀ key,
          next.batch? key =
            (world.store.batch? key).map fun other =>
              if other.isOf chainId batch.txHash then
                other.markedReorged invalidatedAt
              else other)
    (answered : action ≠ .lookup .rpcError)
    (absent : world.MarksAbsent)
    (judged :
      ∀ judgement, watch.bind WatchTick.judged = some judgement →
        judgement.Holds world.canonical) :
    (∀ judgement, outcome.1.bind WatchTick.judged = some judgement →
        judgement.Holds world.canonical) ∧
      (∀ mark ∈ outcome.2.2,
        mark.onChain = false ∧ mark.answer ≠ .rpcError) ∧
      outcome.2.1.ReorgedAmong (outcome.2.2.map Mark.txHash) := by
  cases watchStep_cases stepped with
  | started head =>
      refine ⟨fun judgement isJudged => ?_, absent.marks, absent.rows⟩
      cases judged_of_settle isJudged
  | kept next unjudged truthful found =>
      refine ⟨fun judgement isJudged => ?_, absent.marks, absent.rows⟩
      have stillJudged := judged_of_settle isJudged
      cases unjudged.symm.trans stillJudged
  | @judged tick batch rest answer next unjudged truthful found =>
      refine ⟨fun judgement isJudged => ?_, absent.marks, absent.rows⟩
      cases isJudged
      cases answer with
      | receipt block =>
          cases found
      | notFound =>
          refine ⟨of_decide_eq_true truthful, fun failed => ?_⟩
          cases failed
      | rpcError =>
          exact absurd rfl answered
  | @marked tick judgement invalidatedAt ingestedAt next isJudged
      reorged =>
      have holds := judged judgement isJudged
      refine ⟨fun other isOther => ?_, ?_,
        absent.rows.marked (marks reorged)⟩
      · cases judged_of_settle isOther
      · rw [List.forall_mem_cons]
        exact ⟨⟨decide_eq_false holds.1, holds.2⟩, absent.marks⟩
  | threw isJudged failed =>
      refine ⟨fun judgement isJudged => ?_, absent.marks, absent.rows⟩
      cases isJudged
  | stopped tick =>
      refine ⟨fun judgement isJudged => ?_, absent.marks, absent.rows⟩
      cases isJudged

/-- Steps that leave the watchers, the chain and the marks alone. -/
theorem World.JudgedAbsent.of_store
    {world next : World}
    (absent : world.JudgedAbsent)
    (posterWatch : next.posterWatch = world.posterWatch)
    (readerWatch : next.readerWatch = world.readerWatch)
    (canonical : next.canonical = world.canonical)
    (marks : next.marks = world.marks)
    (rows : next.store.ReorgedAmong world.marked) :
    next.JudgedAbsent where
  marks := marks ▸ absent.marks
  rows := by
    rw [World.marked, marks]
    exact rows
  judged := by
    rw [World.judgements, posterWatch, readerWatch, canonical]
    exact absent.judged

theorem judgedAbsent_posterStep
    {config : SystemConfig}
    {world next : World}
    {event : PosterEvent}
    (absent : world.JudgedAbsent)
    (allowed : lookupsAllow world (.shared (.poster event)) = true)
    (taken : posterStep config world event = some next) :
    next.JudgedAbsent := by
  cases posterStep_cases taken with
  | quiet same =>
      exact absent.of_store same.posterWatch same.readerWatch
        same.canonical same.marks (same.store ▸ absent.rows)
  | ingested raw withinRateLimit now =>
      rcases ingest_cases config world raw withinRateLimit now with
        unchanged | ⟨_, after, _, -, -, -, -, committed, isNext⟩
      · rw [unchanged]
        exact absent
      · rw [isNext]
        refine absent.of_store rfl rfl rfl rfl fun key batch found => ?_
        rw [Store.batch?, (ingestTxn_ok committed).1] at found
        exact absent.rows key batch found
  | prepared read ticked nonempty same =>
      exact absent.of_store same.posterWatch same.readerWatch
        same.canonical same.marks (same.store ▸ absent.rows)
  | sent found isSent fresh unconfirmed same =>
      exact absent.of_store same.posterWatch same.readerWatch
        same.canonical same.marks (same.store ▸ absent.rows)
  | phased found leads arrived same =>
      exact absent.of_store same.posterWatch same.readerWatch
        same.canonical same.marks (same.store ▸ absent.rows)
  | confirmed found included committed =>
      exact absent.of_store rfl rfl rfl rfl
        (absent.rows.confirmIncluded committed)
  | restarted =>
      refine ⟨⟨absent.marks, absent.rows⟩, fun judgement member => ?_⟩
      apply absent.judged judgement
      refine mem_judgements.mpr ((mem_judgements.mp member).imp_left ?_)
      intro ofPoster
      cases ofPoster
  | watched stepped =>
      have answered := of_decide_eq_true allowed
      obtain ⟨judged, marks, rows⟩ :=
        watchStep_absent stepped (fun reorged => batch?_reorgBatch reorged)
          answered absent.toMarksAbsent
          (fun judgement isJudged =>
            absent.judged judgement (mem_judgements.mpr (.inl isJudged)))
      refine ⟨⟨marks, rows⟩, fun judgement member => ?_⟩
      rcases mem_judgements.mp member with ofPoster | ofReader
      · exact judged judgement ofPoster
      · exact absent.judged judgement (mem_judgements.mpr (.inr ofReader))
  | chained canonical =>
      refine ⟨⟨absent.marks, absent.rows⟩, fun judgement member => ?_⟩
      have stillAbsent := List.all_eq_true.mp allowed judgement member
      exact ⟨of_decide_eq_true stillAbsent,
        (absent.judged judgement member).2⟩

theorem judgedAbsent_readerWatch
    {config : SystemConfig}
    {world next : World}
    {action : WatchAction}
    (absent : world.JudgedAbsent)
    (allowed : lookupsAllow world (.shared (.readerWatch action)) = true)
    (taken : world.readerWatchStep config action = some next) :
    next.JudgedAbsent := by
  obtain ⟨outcome, stepped, rfl⟩ := readerWatchStep_cases taken
  have answered := of_decide_eq_true allowed
  obtain ⟨judged, marks, rows⟩ :=
    watchStep_absent stepped
      (fun reorged => Store.batch?_markReorged reorged)
      answered absent.toMarksAbsent
      (fun judgement isJudged =>
        absent.judged judgement (mem_judgements.mpr (.inr isJudged)))
  refine ⟨⟨marks, rows⟩, fun judgement member => ?_⟩
  rcases mem_judgements.mp member with ofPoster | ofReader
  · exact absent.judged judgement (mem_judgements.mpr (.inl ofPoster))
  · exact judged judgement ofReader

theorem judgedAbsent_processBatch
    {config : SystemConfig}
    {world next : World}
    {opts : ProcessBatchOptions}
    (absent : world.JudgedAbsent)
    (taken : systemStep config world (.processBatch opts) = some next) :
    next.JudgedAbsent := by
  obtain ⟨store, stepped, rfl⟩ := systemStep_processBatch taken
  have recorded := readerStep_processBatch stepped
  refine absent.of_store rfl rfl rfl rfl ?_
  cases isRead : readSegment config.libraries opts with
  | none =>
      rw [isRead] at recorded
      exact recorded ▸ absent.rows
  | some verified =>
      rw [isRead] at recorded
      rw [recorded.2]
      exact absent.rows.recordBatch rfl _

/-- In a run whose lookups are answered, and whose judged transactions stay
absent until they are marked, the watchers mark absent transactions only. -/
theorem marksAbsent_of_lookups
    {config : SystemConfig}
    {events : List SystemEvent}
    (allowed :
      Runs.AllSteps (systemStep config)
        (fun world event => lookupsAllow world event = true)
        World.initial events) :
    Runs.AllStates (systemStep config) World.MarksAbsent
      World.initial events := by
  apply Runs.AllStates.mono fun world => World.JudgedAbsent.toMarksAbsent
  refine Runs.allStates_of_invariant ?_ judgedAbsent_initial allowed
  intro world event next absent eventAllowed taken
  cases event with
  | shared event =>
      cases event with
      | poster event =>
          exact judgedAbsent_posterStep absent eventAllowed taken
      | readerWatch action =>
          exact judgedAbsent_readerWatch absent eventAllowed taken
  | processBatch opts =>
      exact judgedAbsent_processBatch absent taken

/-- A Reader records the batch of transaction 1, the transaction is on the
chain, a watcher asks about it and marks what it judged dropped. -/
def watchedBatch
    (watch : WatchAction → SharedEvent)
    (canonical : List Bytes32)
    (answer : ReceiptAnswer) : List SystemEvent :=
  [.processBatch (sampleBatch 1 [3]),
    .shared (.poster (.chain canonical)),
    .shared (watch (.start 100)),
    .shared (watch (.lookup answer)),
    .shared (watch (.mark 0 0))]

/-- A transaction that left the chain is marked by either watcher. -/
theorem marksAbsent_of_dropped :
    Runs.AllStates (systemStep sampleConfig) World.MarksAbsent
        World.initial
        (watchedBatch (fun action => .poster (.watch action)) []
          .notFound) ∧
      Runs.AllStates (systemStep sampleConfig) World.MarksAbsent
        World.initial (watchedBatch .readerWatch [] .notFound) :=
  ⟨marksAbsent_of_lookups (by decide +kernel),
    marksAbsent_of_lookups (by decide +kernel)⟩

/-- A run that ends with a mark of a transaction on the chain visits a state
whose marks are wrong. -/
theorem not_marksAbsent_of_mark
    {events : List SystemEvent}
    (view :
      (Runs.exec? (systemStep sampleConfig) World.initial events).map
          World.marks =
        some [{ txHash := 1, answer := .rpcError, onChain := true }]) :
    ¬ Runs.AllStates (systemStep sampleConfig) World.MarksAbsent
      World.initial events := by
  obtain ⟨final, executed, isView⟩ := Option.map_eq_some_iff.mp view
  intro all
  have good := (all.final executed).marks
  rw [isView] at good
  cases (good _ List.mem_cons_self).1

/-- A failed lookup of a transaction on the chain marks it, in the Poster and in
the Reader. -/
theorem failure_read_as_absence :
    ¬ Runs.AllStates (systemStep sampleConfig) World.MarksAbsent
        World.initial
        (watchedBatch (fun action => .poster (.watch action)) [1]
          .rpcError) ∧
      ¬ Runs.AllStates (systemStep sampleConfig) World.MarksAbsent
        World.initial (watchedBatch .readerWatch [1] .rpcError) :=
  ⟨not_marksAbsent_of_mark (by decide +kernel),
    not_marksAbsent_of_mark (by decide +kernel)⟩

end Bam
