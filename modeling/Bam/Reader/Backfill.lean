import Bam.Reader.LiveTail

namespace Bam

/-!
# Backfill

One pass over a range of blocks that the operator names.  It commits the
cursor of the live tail, but it reads no cursor, goes on behind a blob it could
not reach, and only reports the batch where the blob is old enough to be gone
for good.
-/

/-- `DEFAULT_RETENTION_THRESHOLD_BLOCKS`. -/
def DEFAULT_RETENTION_THRESHOLD_BLOCKS : Nat := 18 * 7200

structure BackfillOptions where
  fromBlock : Nat
  toBlock : Nat
  chunkSize : Option Nat
  retentionThresholdBlocks : Option Nat
  deriving Repr, DecidableEq

/-- The size of the chunks of a backfill. -/
def BackfillOptions.chunk
    (options : BackfillOptions)
    (config : ReaderConfig) : Nat :=
  max 1 (options.chunkSize.getD config.logScanChunkBlocks)

def BackfillOptions.retentionThreshold
    (options : BackfillOptions) : Nat :=
  options.retentionThresholdBlocks.getD DEFAULT_RETENTION_THRESHOLD_BLOCKS

/-- A block is old at a head where its blobs may be gone for good. -/
def BackfillOptions.IsOld
    (options : BackfillOptions)
    (head blockNumber : Nat) : Prop :=
  (options.retentionThreshold : Int) < (head : Int) - blockNumber

instance
    (options : BackfillOptions)
    (head blockNumber : Nat) :
    Decidable (options.IsOld head blockNumber) :=
  inferInstanceAs (Decidable ((_ : Int) < _))

/-- What the services behind a backfill answer. -/
structure BackfillAnswers where
  getBlockNumber : Option Nat
  getLogs : LogScanClient
  /-- The timestamp of a block; `none` where the call throws. -/
  getBlockHeader : Nat → Option Nat
  event : Nat → BlobBatchRegisteredEvent → EventAnswers
  commit : Nat → StoreFate
  now : Nat → Int

/-- A `blob_unreachable` report, which a backfill makes of old batches
only. -/
structure UnreachableReport where
  options : BackfillOptions
  head : Nat
  event : BlobBatchRegisteredEvent
  isOld : options.IsOld head event.blockNumber

structure BackfillCounters where
  scanned : Nat
  processed : Nat
  permanentUnreachable : Nat
  transientUnreachable : Nat
  deriving Repr, DecidableEq

def BackfillCounters.zero : BackfillCounters where
  scanned := 0
  processed := 0
  permanentUnreachable := 0
  transientUnreachable := 0

/-- A Reader and the reports its backfills have made. -/
structure ReaderHistory where
  reader : ReaderState
  reports : List UnreachableReport

abbrev HistoryAttempt := Attempt ReaderHistory LoopError

/-- An attempt of the Reader that reports nothing. -/
def onReader
    {Value : Type}
    (attempt : ReaderAttempt Value) : HistoryAttempt Value :=
  Attempt.onPart ReaderHistory.reader
    (fun history reader => { history with reader }) attempt

/-- What the pass over the events of a block of a backfill accumulates. -/
structure BackfillTally where
  maxTxIndex : Nat
  counters : BackfillCounters
  deriving Repr, DecidableEq

/-- The classification of a processed event. -/
def classify
    (options : BackfillOptions)
    (head : Nat)
    (event : BlobBatchRegisteredEvent)
    (counters : BackfillCounters)
    (result : ProcessBatchResult) : HistoryAttempt BackfillCounters :=
  fun history =>
    if result.outcome = .unreachable then
      if isOld : options.IsOld head event.blockNumber then
        ({ history with
            reports := ⟨options, head, event, isOld⟩ :: history.reports },
          .ok { counters with
            permanentUnreachable := counters.permanentUnreachable + 1 })
      else
        (history, .ok { counters with
          transientUnreachable := counters.transientUnreachable + 1 })
    else (history, .ok counters)

section Loop

variable (config : ReaderConfig)
variable (options : BackfillOptions)
variable (answers : BackfillAnswers)
variable (head : Nat)

/-- The body of the loop over the events of a block. -/
def backfillNext
    (timestampUnixSec : Nat)
    (tally : BackfillTally)
    (event : BlobBatchRegisteredEvent) : HistoryAttempt BackfillTally :=
  (onReader (processEvent config event timestampUnixSec
    (answers.event tally.counters.processed event))).andThen fun result =>
      (classify options head event
        { tally.counters with processed := tally.counters.processed + 1 }
        result).andThen fun counters =>
          Attempt.done {
            maxTxIndex := max result.txIndex tally.maxTxIndex
            counters := counters }

/-- The body of the loop over the blocks of a chunk. -/
def backfillBlock
    (counters : BackfillCounters)
    (group : Nat × List BlobBatchRegisteredEvent) :
    HistoryAttempt BackfillCounters :=
  (Attempt.ofOption .rpc (answers.getBlockHeader group.1)).andThen
    fun timestampUnixSec =>
      (Attempt.fold
        (backfillNext config options answers head timestampUnixSec)
        { maxTxIndex := 0, counters := counters } group.2).andThen
        fun tally =>
          (onReader (commitBlock config group.1 tally.maxTxIndex
            (answers.now group.1) (answers.commit group.1))).andThen
            fun _ => Attempt.done tally.counters

/-- The end of a chunk: commit its last block, unless its events did. -/
def closeChunk
    (chunkTo : Nat)
    (groups : List (Nat × List BlobBatchRegisteredEvent)) :
    HistoryAttempt Unit :=
  if (groups.getLast?.map Prod.fst).all (· < chunkTo) then
    onReader (commitBlock config chunkTo 0 (answers.now chunkTo)
      (answers.commit chunkTo))
  else Attempt.done ()

/-- The body of the loop over the chunks. -/
def backfillChunk
    (chunkFrom chunkTo : Nat)
    (counters : BackfillCounters) : HistoryAttempt BackfillCounters :=
  (Attempt.ofExcept
    ((scanLogs answers.getLogs none chunkFrom chunkTo).mapError
      LoopError.scan)).andThen fun events =>
    (Attempt.fold (backfillBlock config options answers head)
      { counters with scanned := counters.scanned + events.length }
      (groupByBlock events)).andThen fun counters =>
      (closeChunk config answers chunkTo (groupByBlock events)).andThen
        fun _ => Attempt.done counters

/-- The loop over the chunks from a block on.  Every pass moves on by at least
one block, so as many passes as blocks are enough. -/
def backfillChunks
    (effectiveToBlock : Nat) :
    Nat → Nat → BackfillCounters → HistoryAttempt BackfillCounters
  | 0, _, counters => Attempt.done counters
  | passes + 1, chunkFrom, counters =>
      if chunkFrom ≤ effectiveToBlock then
        (backfillChunk config options answers head chunkFrom
          (min (chunkFrom + options.chunk config - 1) effectiveToBlock)
          counters).andThen
          (backfillChunks effectiveToBlock passes
            (chunkFrom + options.chunk config))
      else Attempt.done counters

end Loop

/-- The last block a backfill scans at a head. -/
def BackfillOptions.effectiveToBlock
    (options : BackfillOptions)
    (head : Nat) : Nat :=
  min options.toBlock head

/-- `backfill`. -/
def backfill
    (config : ReaderConfig)
    (options : BackfillOptions)
    (answers : BackfillAnswers) : HistoryAttempt BackfillCounters :=
  if options.toBlock < options.fromBlock then
    Attempt.done BackfillCounters.zero
  else
    (Attempt.ofOption .rpc answers.getBlockNumber).andThen fun head =>
      if options.effectiveToBlock head < options.fromBlock then
        Attempt.done BackfillCounters.zero
      else
        backfillChunks config options answers head
          (options.effectiveToBlock head)
          (options.effectiveToBlock head + 1 - options.fromBlock)
          options.fromBlock BackfillCounters.zero

/-- A registered batch was processed and its blob was reached, or a backfill
has reported it as gone for good. -/
def ReaderHistory.Settled
    (history : ReaderHistory)
    (batch : ScannerBatchLog) : Prop :=
  history.reader.Done batch ∨
    ∃ report ∈ history.reports, batch.ReadAs report.event

/-- The part of a chain without the batches reported as gone. -/
def ReaderHistory.unreported
    (history : ReaderHistory)
    (onChain : ScannerLog → Prop)
    (log : ScannerLog) : Prop :=
  onChain log ∧
    ∀ batch, log.batchLog? = some batch →
      ∀ report ∈ history.reports, ¬batch.ReadAs report.event

section Resume

variable (config : ReaderConfig)
variable (onChain : ScannerLog → Prop)

/-- The batches from the start block on that the Reader selects. -/
def Owed
    (batch : ScannerBatchLog) : Prop :=
  Registered onChain config.contentTags batch ∧
    config.startBlock ≤ batch.blockNumber

/-- No batch from the start block up to the cursor is left out. -/
def ReaderHistory.Resumable
    (history : ReaderHistory) : Prop :=
  ∀ cursor, history.reader.cursor config = some cursor →
    ∀ batch, Owed config onChain batch →
      batch.blockNumber ≤ cursor.lastBlockNumber →
      history.Settled batch

/-- What holds wherever a call that began in `start` is cut. -/
def Resumes
    (start history : ReaderHistory) : Prop :=
  Sound config (history.unreported onChain) start.reader history.reader

/-- A backfill that extends what the Reader has covered. -/
structure Joins
    (history : ReaderHistory)
    (options : BackfillOptions)
    (answers : BackfillAnswers)
    (head : Nat) : Prop where
  /-- Its range ends where the chain no longer changes. -/
  final :
    (options.effectiveToBlock head : Int) ≤
        (head : Int) - config.reorgWindowBlocks ∨
      Truthful onChain config.contentTags (options.effectiveToBlock head)
        answers.getLogs
  /-- It leaves no open batch between the cursor and its range. -/
  adjoins :
    ∀ batch, Owed config onChain batch →
      scanFrom config history.reader ≤ batch.blockNumber →
      batch.blockNumber < options.fromBlock →
      history.Settled batch
  /-- No block it commits is behind the cursor. -/
  ahead :
    ∀ cursor, history.reader.cursor config = some cursor →
      cursor.lastBlockNumber ≤ options.fromBlock + options.chunk config - 1 ∧
        cursor.lastBlockNumber ≤ options.effectiveToBlock head ∧
        ∀ batch, Registered onChain config.contentTags batch →
          options.fromBlock ≤ batch.blockNumber →
          batch.blockNumber ≤ options.effectiveToBlock head →
          cursor.lastBlockNumber ≤ batch.blockNumber
  /-- It reaches the blob of every open batch that is not old. -/
  reached :
    ∀ batch, Owed config onChain batch →
      options.fromBlock ≤ batch.blockNumber →
      batch.blockNumber ≤ options.effectiveToBlock head →
      ¬options.IsOld head batch.blockNumber →
      ¬history.Settled batch →
      ∀ position event, batch.ReadAs event →
        (answers.event position event).fetchBlob ≠ none

end Resume

section Settled

/-- A history with more calls and reports behind it, and the same cursor. -/
structure ReaderHistory.Grown
    (before after : ReaderHistory) : Prop where
  reader : before.reader.Grown after.reader
  reports : ∀ report ∈ before.reports, report ∈ after.reports

theorem ReaderHistory.Grown.refl
    (history : ReaderHistory) : history.Grown history :=
  ⟨.refl history.reader, fun _ member => member⟩

theorem ReaderHistory.Grown.trans
    {before middle after : ReaderHistory}
    (first : before.Grown middle)
    (second : middle.Grown after) : before.Grown after :=
  ⟨first.reader.trans second.reader,
    fun report member =>
      second.reports report (first.reports report member)⟩

variable {config : ReaderConfig}
variable {onChain : ScannerLog → Prop}
variable {before after : ReaderHistory}

theorem ReaderHistory.Settled.grown
    {batch : ScannerBatchLog}
    (settled : before.Settled batch)
    (grown : before.Grown after) : after.Settled batch := by
  rcases settled with ⟨event, isRead, reached⟩ | ⟨report, member, isRead⟩
  · exact .inl ⟨event, isRead, reached.grown grown.reader⟩
  · exact .inr ⟨report, grown.reports report member, isRead⟩

/-- Covering the batches that are not reported is settling all of them. -/
theorem coveredBelow_unreported_iff
    (history : ReaderHistory)
    (limit : Nat) :
    CoveredBelow config (history.unreported onChain) history.reader limit ↔
      ∀ batch, Owed config onChain batch → batch.blockNumber < limit →
        history.Settled batch := by
  constructor
  · rintro covered batch ⟨⟨log, isOnChain, ofLog, selected⟩, lower⟩ upper
    by_cases reported :
        ∃ report ∈ history.reports, batch.ReadAs report.event
    · exact .inr reported
    · refine .inl (covered batch ⟨log, ⟨isOnChain, ?_⟩, ofLog, selected⟩
        lower upper)
      intro other isOther report member isRead
      rw [ofLog] at isOther
      cases isOther
      exact reported ⟨report, member, isRead⟩
  · rintro settled batch ⟨log, ⟨isOnChain, unreported⟩, ofLog, selected⟩
      lower upper
    rcases settled batch ⟨⟨log, isOnChain, ofLog, selected⟩, lower⟩ upper
      with isDone | ⟨report, member, isRead⟩
    · exact isDone
    · exact absurd isRead (unreported batch ofLog report member)

theorem Resumes.grown
    {start : ReaderHistory}
    (resumes : Resumes config onChain start before)
    (grown : before.Grown after) : Resumes config onChain start after := by
  have kept := (Sound.grown resumes grown.reader).kept
  refine { covered := ?_, kept := kept }
  rw [grown.reader.scanFrom]
  apply (coveredBelow_unreported_iff after _).mpr
  intro batch owed upper
  exact ((coveredBelow_unreported_iff before _).mp resumes.covered batch
    owed upper).grown grown

end Settled

section Pass

variable {config : ReaderConfig}
variable {onChain : ScannerLog → Prop}
variable {options : BackfillOptions}
variable {answers : BackfillAnswers}
variable {head : Nat}
variable {start : ReaderHistory}

/-- The batch of an event is settled if the Reader owes it. -/
def ReaderHistory.Clears
    (config : ReaderConfig)
    (onChain : ScannerLog → Prop)
    (history : ReaderHistory)
    (event : BlobBatchRegisteredEvent) : Prop :=
  ∀ batch, Owed config onChain batch → batch.ReadAs event →
    history.Settled batch

theorem ReaderHistory.Clears.grown
    {before after : ReaderHistory}
    {event : BlobBatchRegisteredEvent}
    (clears : before.Clears config onChain event)
    (grown : before.Grown after) : after.Clears config onChain event :=
  fun batch owed isRead => (clears batch owed isRead).grown grown

/-- What the classification of an event does: an event that is not reached is
settled before, or reported. -/
theorem ensures_classify
    {event : BlobBatchRegisteredEvent}
    {counters : BackfillCounters}
    {result : ProcessBatchResult}
    (before : ReaderHistory)
    (reached :
      result.outcome ≠ .unreachable ∨
        ¬options.IsOld head event.blockNumber →
      before.Clears config onChain event) :
    Attempt.Ensures (· = before)
      (classify options head event counters result)
      (fun _ after =>
        before.Grown after ∧ after.Clears config onChain event)
      before.Grown := by
  rintro history rfl
  unfold classify
  by_cases isUnreachable : result.outcome = .unreachable
  · by_cases isOld : options.IsOld head event.blockNumber
    · rw [if_pos isUnreachable, dif_pos isOld]
      exact ⟨⟨.refl _, fun _ member => List.mem_cons_of_mem _ member⟩,
        fun batch _ isRead => .inr ⟨_, List.mem_cons_self, isRead⟩⟩
    · rw [if_pos isUnreachable, dif_neg isOld]
      exact ⟨.refl _, reached (.inr isOld)⟩
  · rw [if_neg isUnreachable]
    exact ⟨.refl _, reached (.inl isUnreachable)⟩

/-- One pass of the loop over the events of a block settles its event. -/
theorem ensures_backfillNext
    (joins : Joins config onChain start options answers head)
    (timestampUnixSec : Nat)
    (tally : BackfillTally)
    {event : BlobBatchRegisteredEvent}
    (lower : options.fromBlock ≤ event.blockNumber)
    (upper : event.blockNumber ≤ options.effectiveToBlock head)
    (before : ReaderHistory)
    (keeps : ∀ batch, start.Settled batch → before.Settled batch) :
    Attempt.Ensures (· = before)
      (backfillNext config options answers head timestampUnixSec tally
        event)
      (fun _ after =>
        before.Grown after ∧ after.Clears config onChain event)
      before.Grown := by
  unfold backfillNext
  refine Attempt.ensures_andThen
    (fun result after =>
      before.Grown after ∧
        (result.outcome ≠ .unreachable ∨
            ¬options.IsOld head event.blockNumber →
          after.Clears config onChain event)) ?_ fun result => ?_
  · refine Attempt.ensures_onPart
      ((ensures_processEvent config event timestampUnixSec _
        before.reader).mono (fun _ same => same) ?_ ?_)
    · rintro result reader ⟨grown, reads, unreached⟩
      refine ⟨⟨grown, fun _ member => member⟩, fun open_ batch owed
        isRead => ?_⟩
      by_cases isUnreachable : result.outcome = .unreachable
      · have notOld := open_.resolve_left (not_not_intro isUnreachable)
        by_cases settled : start.Settled batch
        · exact (keeps batch settled).grown
            ⟨grown, fun _ member => member⟩
        · rw [isRead.blockNumber] at lower upper notOld
          exact absurd (unreached isUnreachable)
            (joins.reached batch owed lower upper notOld settled _ event
              isRead)
      · exact .inl ⟨event, isRead, reads isUnreachable⟩
    · exact fun reader grown => ⟨grown, fun _ member => member⟩
  · refine Attempt.ensures_of_each fun middle holds => ?_
    obtain ⟨grown, reached⟩ := holds
    refine Attempt.ensures_andThen _
      ((ensures_classify middle reached).mono (fun _ same => same)
        (fun _ _ result => result) fun _ later => grown.trans later)
      fun counters => ?_
    exact Attempt.ensures_done fun after happened =>
      ⟨grown.trans happened.1, happened.2⟩

/-- The pass over the events of a block settles them. -/
theorem ensures_backfillEvents
    (joins : Joins config onChain start options answers head)
    (timestampUnixSec : Nat)
    (tally : BackfillTally)
    {events : List BlobBatchRegisteredEvent}
    (within :
      ∀ event ∈ events,
        options.fromBlock ≤ event.blockNumber ∧
          event.blockNumber ≤ options.effectiveToBlock head)
    (before : ReaderHistory)
    (keeps : ∀ batch, start.Settled batch → before.Settled batch) :
    Attempt.Ensures (· = before)
      (Attempt.fold
        (backfillNext config options answers head timestampUnixSec) tally
        events)
      (fun _ after =>
        before.Grown after ∧
          ∀ event ∈ events, after.Clears config onChain event)
      before.Grown := by
  refine (Attempt.ensures_fold
    (fun rest _ after =>
      before.Grown after ∧
        ∀ event ∈ events,
          event ∈ rest ∨ after.Clears config onChain event)
    (fun event rest tally suffix => ?_) tally).mono ?_ ?_
      fun _ grown => grown
  · refine Attempt.ensures_of_each fun middle holds => ?_
    obtain ⟨grown, clears⟩ := holds
    obtain ⟨lower, upper⟩ :=
      within event (suffix.subset List.mem_cons_self)
    refine (ensures_backfillNext joins timestampUnixSec tally lower upper
      middle fun batch settled =>
        (keeps batch settled).grown grown).mono (fun _ same => same) ?_
          fun _ later => grown.trans later
    rintro - after ⟨later, isCleared⟩
    refine ⟨grown.trans later, fun other member => ?_⟩
    rcases clears other member with isLeft | isClear
    · rcases List.mem_cons.mp isLeft with rfl | isLater
      · exact .inr isCleared
      · exact .inl isLater
    · exact .inr (isClear.grown later)
  · rintro history rfl
    exact ⟨.refl history, fun event member => .inl member⟩
  · rintro - after ⟨grown, clears⟩
    exact ⟨grown, fun event member =>
      (clears event member).resolve_left List.not_mem_nil⟩

/-- What the loop over the blocks of a chunk keeps while the groups in `rest`
are left. -/
structure ChunkInvariant
    (config : ReaderConfig)
    (onChain : ScannerLog → Prop)
    (start : ReaderHistory)
    (events : List BlobBatchRegisteredEvent)
    (chunkFrom chunkTo : Nat)
    (rest : List (Nat × List BlobBatchRegisteredEvent))
    (history : ReaderHistory) : Prop where
  resumes : Resumes config onChain start history
  keeps : ∀ batch, start.Settled batch → history.Settled batch
  covered :
    ∀ batch, Owed config onChain batch → batch.blockNumber < chunkFrom →
      history.Settled batch
  cleared :
    ∀ event ∈ events, event.blockNumber ∉ rest.map Prod.fst →
      history.Clears config onChain event
  behind :
    ∀ blockNumber ∈ rest.map Prod.fst,
      Behind config history.reader blockNumber
  bounded : Behind config history.reader chunkTo

theorem ChunkInvariant.grown
    {events : List BlobBatchRegisteredEvent}
    {chunkFrom chunkTo : Nat}
    {rest : List (Nat × List BlobBatchRegisteredEvent)}
    {before after : ReaderHistory}
    (holds :
      ChunkInvariant config onChain start events chunkFrom chunkTo rest
        before)
    (grown : before.Grown after) :
    ChunkInvariant config onChain start events chunkFrom chunkTo rest
      after where
  resumes := holds.resumes.grown grown
  keeps batch settled := (holds.keeps batch settled).grown grown
  covered batch owed below := (holds.covered batch owed below).grown grown
  cleared event member outside :=
    (holds.cleared event member outside).grown grown
  behind blockNumber member :=
    (holds.behind blockNumber member).grown grown.reader
  bounded := holds.bounded.grown grown.reader

/-- A cleared scan covers its range up to a block. -/
theorem settled_of_cleared
    {events : List BlobBatchRegisteredEvent}
    {chunkFrom chunkTo blockNumber : Nat}
    (scanned :
      Scanned onChain config.contentTags chunkFrom chunkTo events)
    {history : ReaderHistory}
    (covered :
      ∀ batch, Owed config onChain batch → batch.blockNumber < chunkFrom →
        history.Settled batch)
    (upTo : blockNumber ≤ chunkTo)
    (cleared :
      ∀ event ∈ events, event.blockNumber ≤ blockNumber →
        history.Clears config onChain event)
    {batch : ScannerBatchLog}
    (owed : Owed config onChain batch)
    (below : batch.blockNumber < blockNumber + 1) :
    history.Settled batch := by
  by_cases old : batch.blockNumber < chunkFrom
  · exact covered batch owed old
  · obtain ⟨event, member, isRead⟩ :=
      scanned.complete batch owed.1 (Nat.le_of_not_lt old)
        ((Nat.le_of_lt_succ below).trans upTo)
    exact cleared event member
      (isRead.blockNumber ▸ Nat.le_of_lt_succ below) batch owed isRead

/-- A history whose cursor has moved to a block. -/
structure ReaderHistory.CommittedTo
    (config : ReaderConfig)
    (before after : ReaderHistory)
    (blockNumber : Nat) : Prop where
  reader : Committed config before.reader after.reader blockNumber
  reports : after.reports = before.reports

theorem ReaderHistory.Settled.committed
    {before after : ReaderHistory}
    {blockNumber : Nat}
    {batch : ScannerBatchLog}
    (settled : before.Settled batch)
    (committed : before.CommittedTo config after blockNumber) :
    after.Settled batch := by
  rcases settled with ⟨event, isRead, reached⟩ | reported
  · exact .inl ⟨event, isRead, committed.reader.read reached⟩
  · unfold ReaderHistory.Settled
    rw [committed.reports]
    exact .inr reported

theorem ReaderHistory.CommittedTo.behind
    {before after : ReaderHistory}
    {blockNumber later : Nat}
    (committed : before.CommittedTo config after blockNumber)
    (notLess : blockNumber ≤ later) : Behind config after.reader later := by
  intro cursor isCursor
  obtain ⟨row, found, isBlock⟩ := committed.reader.cursor
  rw [found] at isCursor
  cases isCursor
  exact isBlock ▸ notLess

/-- Committing a block below which everything is settled. -/
theorem ensures_commitHistory
    {before : ReaderHistory}
    {blockNumber : Nat}
    (resumes : Resumes config onChain start before)
    (settled :
      ∀ batch, Owed config onChain batch →
        batch.blockNumber < blockNumber + 1 → before.Settled batch)
    (behind : Behind config before.reader blockNumber)
    (lastTxIndex : Nat)
    (now : Int)
    (fate : StoreFate) :
    Attempt.Ensures (· = before)
      (onReader (commitBlock config blockNumber lastTxIndex now fate))
      (fun _ after =>
        Resumes config onChain start after ∧
          before.CommittedTo config after blockNumber)
      (Resumes config onChain start) := by
  refine Attempt.ensures_onPart
    ((ensures_commitBlock resumes
      ((coveredBelow_unreported_iff before _).mpr settled) behind
      lastTxIndex now fate).mono (fun _ same => same) ?_ ?_)
  · rintro - reader ⟨sound, committed⟩
    exact ⟨sound, ⟨committed, rfl⟩⟩
  · exact fun reader sound => sound

/-- One pass of the loop over the blocks of a chunk. -/
theorem ensures_backfillBlock
    (joins : Joins config onChain start options answers head)
    {events : List BlobBatchRegisteredEvent}
    {chunkFrom chunkTo : Nat}
    (lower : options.fromBlock ≤ chunkFrom)
    (upper : chunkTo ≤ options.effectiveToBlock head)
    (scanned :
      Scanned onChain config.contentTags chunkFrom chunkTo events)
    {group : Nat × List BlobBatchRegisteredEvent}
    {rest : List (Nat × List BlobBatchRegisteredEvent)}
    (suffix : group :: rest <:+ groupByBlock events)
    (counters : BackfillCounters) :
    Attempt.Ensures
      (ChunkInvariant config onChain start events chunkFrom chunkTo
        (group :: rest))
      (backfillBlock config options answers head counters group)
      (fun _ =>
        ChunkInvariant config onChain start events chunkFrom chunkTo rest)
      (Resumes config onChain start) := by
  have isGroup : group ∈ groupByBlock events :=
    suffix.subset List.mem_cons_self
  have inGroup :
      ∀ event, event ∈ group.2 ↔
        event ∈ events ∧ event.blockNumber = group.1 :=
    mem_group_iff isGroup
  have upTo : group.1 ≤ chunkTo := by
    obtain ⟨event, member, ofGroup⟩ :=
      (mem_groupByBlock_iff group.1).mp (List.mem_map_of_mem isGroup)
    exact ofGroup ▸ (scanned.within event member).2
  unfold backfillBlock
  refine Attempt.ensures_andThen _
    (Attempt.ensures_ofOption (fun _ holds => holds.resumes)
      fun _ _ _ holds => holds) fun timestampUnixSec => ?_
  refine Attempt.ensures_of_each fun before holds => ?_
  refine Attempt.ensures_andThen _
    ((ensures_backfillEvents joins timestampUnixSec _
      (fun event member => by
        obtain ⟨isEvent, -⟩ := (inGroup event).mp member
        obtain ⟨least, most⟩ := scanned.within event isEvent
        exact ⟨lower.trans least, most.trans upper⟩)
      before holds.keeps).mono (fun _ same => same)
        (fun _ _ result => result)
        fun _ grown => holds.resumes.grown grown) fun tally => ?_
  refine Attempt.ensures_of_each fun after passed => ?_
  obtain ⟨grown, clears⟩ := passed
  have later := holds.grown grown
  have cleared :
      ∀ event ∈ events, event.blockNumber ∉ rest.map Prod.fst →
        after.Clears config onChain event := by
    intro event member outside
    by_cases ofGroup : event.blockNumber = group.1
    · exact clears event ((inGroup event).mpr ⟨member, ofGroup⟩)
    · refine later.cleared event member fun inGroups => ?_
      rcases List.mem_cons.mp inGroups with isFirst | isLater
      · exact ofGroup isFirst
      · exact outside isLater
  refine Attempt.ensures_andThen _
    (ensures_commitHistory later.resumes
      (fun batch => settled_of_cleared scanned later.covered upTo
        fun event member below =>
          cleared event member fun isLater =>
            Nat.not_lt.mpr below (lt_of_suffix suffix isLater))
      (later.behind group.1 (List.mem_map_of_mem List.mem_cons_self))
      _ _ _) fun _ => Attempt.ensures_done fun final moved => ?_
  obtain ⟨resumes, committed⟩ := moved
  exact {
    resumes := resumes
    keeps := fun batch settled =>
      (later.keeps batch settled).committed committed
    covered := fun batch owed below =>
      (later.covered batch owed below).committed committed
    cleared := fun event member outside batch owed isRead =>
      (cleared event member outside batch owed isRead).committed committed
    behind := fun blockNumber isLater =>
      committed.behind (Nat.le_of_lt (lt_of_suffix suffix isLater))
    bounded := committed.behind upTo }

/-- What a history must meet where a chunk begins. -/
structure Entering
    (config : ReaderConfig)
    (onChain : ScannerLog → Prop)
    (start history : ReaderHistory)
    (chunkFrom chunkTo : Nat) : Prop where
  keeps : ∀ batch, start.Settled batch → history.Settled batch
  covered :
    ∀ batch, Owed config onChain batch → batch.blockNumber < chunkFrom →
      history.Settled batch
  ahead :
    ∀ batch, Registered onChain config.contentTags batch →
      chunkFrom ≤ batch.blockNumber → batch.blockNumber ≤ chunkTo →
      Behind config history.reader batch.blockNumber
  bounded : Behind config history.reader chunkTo

/-- What a history meets where a chunk has ended. -/
structure Leaving
    (config : ReaderConfig)
    (onChain : ScannerLog → Prop)
    (start : ReaderHistory)
    (chunkTo : Nat)
    (history : ReaderHistory) : Prop where
  resumes : Resumes config onChain start history
  keeps : ∀ batch, start.Settled batch → history.Settled batch
  covered :
    ∀ batch, Owed config onChain batch → batch.blockNumber < chunkTo + 1 →
      history.Settled batch
  bounded : Behind config history.reader chunkTo

/-- The end of a chunk keeps what its blocks have reached. -/
theorem ensures_closeChunk
    {events : List BlobBatchRegisteredEvent}
    {chunkFrom chunkTo : Nat}
    (scanned :
      Scanned onChain config.contentTags chunkFrom chunkTo events) :
    Attempt.Ensures
      (ChunkInvariant config onChain start events chunkFrom chunkTo [])
      (closeChunk config answers chunkTo (groupByBlock events))
      (fun _ => Leaving config onChain start chunkTo)
      (Resumes config onChain start) := by
  refine Attempt.ensures_of_each fun before holds => ?_
  have covered :
      ∀ batch, Owed config onChain batch →
        batch.blockNumber < chunkTo + 1 → before.Settled batch :=
    fun batch =>
      settled_of_cleared scanned holds.covered (Nat.le_refl chunkTo)
        fun event member _ => holds.cleared event member List.not_mem_nil
  unfold closeChunk
  split
  · refine (ensures_commitHistory holds.resumes covered holds.bounded
      _ _ _).mono (fun _ same => same) ?_ fun _ resumes => resumes
    rintro - after ⟨resumes, committed⟩
    exact {
      resumes := resumes
      keeps := fun batch settled =>
        (holds.keeps batch settled).committed committed
      covered := fun batch owed below =>
        (covered batch owed below).committed committed
      bounded := committed.behind (Nat.le_refl chunkTo) }
  · refine Attempt.ensures_done fun after same => ?_
    rw [same]
    exact {
      resumes := holds.resumes
      keeps := holds.keeps
      covered := covered
      bounded := holds.bounded }

/-- One pass of the loop over the chunks. -/
theorem ensures_backfillChunk
    (joins : Joins config onChain start options answers head)
    (truthful :
      Truthful onChain config.contentTags (options.effectiveToBlock head)
        answers.getLogs)
    {chunkFrom chunkTo : Nat}
    (lower : options.fromBlock ≤ chunkFrom)
    (ordered : chunkFrom ≤ chunkTo)
    (upper : chunkTo ≤ options.effectiveToBlock head)
    (counters : BackfillCounters) :
    Attempt.Ensures
      (fun history =>
        Resumes config onChain start history ∧
          Entering config onChain start history chunkFrom chunkTo)
      (backfillChunk config options answers head chunkFrom chunkTo
        counters)
      (fun _ => Leaving config onChain start chunkTo)
      (Resumes config onChain start) := by
  have below : (chunkTo : Int) ≤ options.effectiveToBlock head :=
    Int.ofNat_le.mpr upper
  unfold backfillChunk
  refine Attempt.ensures_of_each fun before holds => ?_
  obtain ⟨resumes, entering⟩ := holds
  refine Attempt.ensures_andThen
    (fun events history =>
      history = before ∧
        scanLogs answers.getLogs none chunkFrom chunkTo = .ok events)
    (Attempt.ensures_ofExcept (fun _ same => same ▸ resumes)
      fun events answered state same => ⟨same, ?_⟩) fun events => ?_
  · cases returned : scanLogs answers.getLogs none chunkFrom chunkTo with
    | error error =>
        rw [returned] at answered
        cases answered
    | ok found =>
        rw [returned] at answered
        cases answered
        rfl
  · refine Attempt.ensures_of_each fun history scans => ?_
    obtain ⟨rfl, returned⟩ := scans
    have scanned := scanned_scanLogs truthful ordered below returned
    have initially :
        ChunkInvariant config onChain start events chunkFrom chunkTo
          (groupByBlock events) history :=
      { resumes := resumes
        keeps := entering.keeps
        covered := entering.covered
        cleared := fun event member outside =>
          absurd ((mem_groupByBlock_iff event.blockNumber).mpr
            ⟨event, member, rfl⟩) outside
        behind := fun blockNumber member => by
          obtain ⟨event, isEvent, rfl⟩ :=
            (mem_groupByBlock_iff blockNumber).mp member
          obtain ⟨batch, registered, isRead⟩ :=
            registered_of_mem_scanLogs truthful ordered below returned
              isEvent
          obtain ⟨least, most⟩ := scanned.within event isEvent
          rw [isRead.blockNumber] at least most ⊢
          exact entering.ahead batch registered least most
        bounded := entering.bounded }
    refine Attempt.ensures_andThen _
      ((Attempt.ensures_fold
        (fun rest _ =>
          ChunkInvariant config onChain start events chunkFrom chunkTo
            rest)
        (fun group rest counters suffix =>
          ensures_backfillBlock joins lower upper scanned suffix counters)
        _).mono (fun _ same => same ▸ initially)
          (fun _ _ holds => holds) fun _ resumes => resumes)
      fun counted => ?_
    exact Attempt.ensures_andThen _ (ensures_closeChunk scanned)
      fun _ => Attempt.ensures_done fun _ leaving => leaving

/-- The loop over the chunks. -/
theorem ensures_backfillChunks
    (joins : Joins config onChain start options answers head)
    (truthful :
      Truthful onChain config.contentTags (options.effectiveToBlock head)
        answers.getLogs)
    (passes : Nat)
    {chunkFrom : Nat}
    (lower : options.fromBlock ≤ chunkFrom)
    (counters : BackfillCounters) :
    Attempt.Ensures
      (fun history =>
        Resumes config onChain start history ∧
          (chunkFrom ≤ options.effectiveToBlock head →
            Entering config onChain start history chunkFrom
              (min (chunkFrom + options.chunk config - 1)
                (options.effectiveToBlock head))))
      (backfillChunks config options answers head
        (options.effectiveToBlock head) passes chunkFrom counters)
      (fun _ => Resumes config onChain start)
      (Resumes config onChain start) := by
  have positive : 0 < options.chunk config :=
    Nat.le_max_left 1 _
  induction passes generalizing chunkFrom counters with
  | zero =>
      exact Attempt.ensures_done fun _ holds => holds.1
  | succ passes inductionHypothesis =>
      unfold backfillChunks
      split
      · rename_i isWithin
        have ordered :
            chunkFrom ≤ min (chunkFrom + options.chunk config - 1)
              (options.effectiveToBlock head) := by
          omega
        refine Attempt.ensures_andThen _
          ((ensures_backfillChunk joins truthful lower ordered
            (Nat.min_le_right _ _) counters).mono
              (fun _ holds => ⟨holds.1, holds.2 isWithin⟩)
              (fun _ _ leaving => leaving) fun _ resumes => resumes)
          fun counted => ?_
        refine (inductionHypothesis (by omega) counted).mono
          (fun history leaving => ⟨leaving.resumes, fun goesOn => ?_⟩)
          (fun _ _ resumes => resumes) fun _ resumes => resumes
        have isLast :
            min (chunkFrom + options.chunk config - 1)
              (options.effectiveToBlock head) + 1 =
                chunkFrom + options.chunk config := by
          omega
        have behind :
            ∀ blockNumber,
              chunkFrom + options.chunk config ≤ blockNumber →
              Behind config history.reader blockNumber := by
          intro blockNumber later cursor found
          have notLess := leaving.bounded cursor found
          omega
        exact {
          keeps := leaving.keeps
          covered := fun batch owed below =>
            leaving.covered batch owed
              (Nat.lt_of_lt_of_eq below isLast.symm)
          ahead := fun batch _ least _ => behind _ least
          bounded := behind _ (by omega) }
      · exact Attempt.ensures_done fun _ holds => holds.1

end Pass

section Calls

variable {config : ReaderConfig}
variable {onChain : ScannerLog → Prop}

/-- A provider that is true of a chain up to a block is true of it below. -/
theorem Truthful.mono
    {contentTags : Option (List Bytes32)}
    {getLogs : LogScanClient}
    {limit lower : Int}
    (truthful : Truthful onChain contentTags limit getLogs)
    (isLower : lower ≤ limit) :
    Truthful onChain contentTags lower getLogs :=
  fun fromBlock toBlock logs below =>
    truthful fromBlock toBlock logs (below.trans isLower)

/-- A history that has settled everything up to its cursor resumes. -/
theorem resumes_refl
    {history : ReaderHistory}
    (covered :
      CoveredBelow config (history.unreported onChain) history.reader
        (scanFrom config history.reader)) :
    Resumes config onChain history history where
  covered := covered
  kept cursor found := ⟨cursor, found, Nat.le_refl _⟩

/-- A backfill that joins what is covered keeps it, wherever it is cut. -/
theorem ensures_backfill
    {start : ReaderHistory}
    (options : BackfillOptions)
    (answers : BackfillAnswers)
    (truthful :
      ∀ head, answers.getBlockNumber = some head →
        Truthful onChain config.contentTags
          ((head : Int) - config.reorgWindowBlocks) answers.getLogs)
    (joins :
      ∀ head, answers.getBlockNumber = some head →
        options.fromBlock ≤ options.effectiveToBlock head →
        Joins config onChain start options answers head)
    (covered :
      CoveredBelow config (start.unreported onChain) start.reader
        (scanFrom config start.reader)) :
    Attempt.Ensures (· = start) (backfill config options answers)
      (fun _ => Resumes config onChain start)
      (Resumes config onChain start) := by
  have resumes := resumes_refl covered
  unfold backfill
  split
  · exact Attempt.ensures_done fun _ same => same ▸ resumes
  · refine Attempt.ensures_andThen
      (fun head history =>
        history = start ∧ answers.getBlockNumber = some head)
      (Attempt.ensures_ofOption (fun _ same => same ▸ resumes)
        fun head isHead history same => ⟨same, isHead⟩) fun head => ?_
    split
    · exact Attempt.ensures_done fun _ holds => holds.1 ▸ resumes
    · rename_i isRange
      have ordered := Nat.le_of_not_lt isRange
      refine Attempt.ensures_of_each fun history isStart => ?_
      obtain ⟨rfl, isHead⟩ := isStart
      have joined := joins head isHead ordered
      have isTruthful :
          Truthful onChain config.contentTags
            (options.effectiveToBlock head) answers.getLogs :=
        joined.final.elim (truthful head isHead).mono id
      refine (ensures_backfillChunks joined isTruthful _
        (Nat.le_refl _) _).mono ?_ (fun _ _ resumes => resumes)
          fun _ resumes => resumes
      intro state same
      rw [same]
      refine ⟨resumes, fun _ => ?_⟩
      exact {
        keeps := fun _ settled => settled
        covered := fun batch owed below => by
          by_cases old : batch.blockNumber < scanFrom config history.reader
          · exact (coveredBelow_unreported_iff history _).mp covered batch
              owed old
          · exact joined.adjoins batch owed (Nat.le_of_not_lt old) below
        ahead := fun batch registered least most cursor found =>
          (joined.ahead cursor found).2.2 batch registered least
            (most.trans (Nat.min_le_right _ _))
        bounded := fun cursor found =>
          Nat.le_min.mpr ⟨(joined.ahead cursor found).1,
            (joined.ahead cursor found).2.1⟩ }

end Calls

end Bam
