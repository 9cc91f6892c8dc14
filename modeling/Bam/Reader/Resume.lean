import Bam.Lib.Runs
import Bam.Reader.Backfill

namespace Bam

/-!
# Runs of both loops

Backfills and ticks of the live tail on one store share a cursor.  Where every
backfill joins what is covered, the cursor never moves back and nothing up to
it is left out, so each call resumes where the one before it ended.
-/

section Calls

variable {config : ReaderConfig}
variable {onChain : ScannerLog → Prop}

/-- A call of one of the two loops of a Reader, with what it is answered. -/
inductive LoopCall where
  | liveTailTick (answers : TickAnswers)
  | backfill (options : BackfillOptions) (answers : BackfillAnswers)

/-- What a call leaves, whether it returns or throws. -/
def loopCallStep
    (config : ReaderConfig)
    (history : ReaderHistory) : LoopCall → ReaderHistory
  | .liveTailTick answers =>
      (onReader (liveTailTick config answers) history).1
  | .backfill options answers =>
      (Bam.backfill config options answers history).1

/-- The history after a run of calls. -/
def loopRun
    (config : ReaderConfig)
    (start : ReaderHistory)
    (calls : List LoopCall) : ReaderHistory :=
  calls.foldl (loopCallStep config) start

/-- The provider answers a call with the logs of the chain up to its safe
head. -/
def LoopCall.Truthful
    (config : ReaderConfig)
    (onChain : ScannerLog → Prop) : LoopCall → Prop
  | .liveTailTick answers => answers.Truthful config onChain
  | .backfill _ answers =>
      ∀ head, answers.getBlockNumber = some head →
        Bam.Truthful onChain config.contentTags
          ((head : Int) - config.reorgWindowBlocks) answers.getLogs

/-- A backfill with a range to scan joins what is covered. -/
def LoopCall.Allowed
    (config : ReaderConfig)
    (onChain : ScannerLog → Prop)
    (history : ReaderHistory) : LoopCall → Prop
  | .liveTailTick _ => True
  | .backfill options answers =>
      ∀ head, answers.getBlockNumber = some head →
        options.fromBlock ≤ options.effectiveToBlock head →
        Joins config onChain history options answers head

/-- What one allowed call keeps. -/
theorem resumes_loopCallStep
    {history : ReaderHistory}
    {call : LoopCall}
    (truthful : call.Truthful config onChain)
    (allowed : call.Allowed config onChain history)
    (covered :
      CoveredBelow config (history.unreported onChain) history.reader
        (scanFrom config history.reader)) :
    Resumes config onChain history
      (loopCallStep config history call) := by
  cases call with
  | liveTailTick answers =>
      refine (Attempt.ensures_onPart
        ((ensures_liveTailTick answers (fun head isHead =>
          (truthful head isHead).scans.mono fun log isLog => isLog.1)
          covered).mono (fun _ same => same) ?_ ?_)).leaves rfl
      · exact fun result reader sound => sound
      · exact fun reader sound => sound
  | backfill options answers =>
      exact (ensures_backfill options answers truthful allowed
        covered).leaves rfl

/-- What a run of allowed calls keeps. -/
theorem resumes_loopRun
    {start : ReaderHistory}
    {calls : List LoopCall}
    (truthful : ∀ call ∈ calls, call.Truthful config onChain)
    (allowed :
      Runs.AllSteps
        (fun history call => some (loopCallStep config history call))
        (LoopCall.Allowed config onChain) start calls)
    (covered :
      CoveredBelow config (start.unreported onChain) start.reader
        (scanFrom config start.reader)) :
    Resumes config onChain start (loopRun config start calls) := by
  induction calls generalizing start with
  | nil =>
      exact resumes_refl covered
  | cons call rest inductionHypothesis =>
      have stepped :=
        resumes_loopCallStep (truthful call List.mem_cons_self)
          allowed.1 covered
      have later :=
        inductionHypothesis
          (fun other member =>
            truthful other (List.mem_cons_of_mem call member))
          allowed.2 stepped.covered
      refine { covered := later.covered, kept := fun cursor found => ?_ }
      obtain ⟨between, isBetween, first⟩ := stepped.kept cursor found
      obtain ⟨final, isFinal, second⟩ := later.kept between isBetween
      exact ⟨final, isFinal, first.trans second⟩

end Calls

/-- In a run that started without a cursor and whose backfills all join what
is covered, no batch between the start block and the cursor is ever left out,
and the cursor never moves back. -/
theorem resumable_of_joins
    (config : ReaderConfig)
    (onChain : ScannerLog → Prop)
    (start : ReaderHistory)
    (fresh : start.reader.cursor config = none)
    (earlier later : List LoopCall)
    (truthful :
      ∀ call ∈ earlier ++ later, call.Truthful config onChain)
    (allowed :
      Runs.AllSteps
        (fun history call => some (loopCallStep config history call))
        (LoopCall.Allowed config onChain) start (earlier ++ later)) :
    (loopRun config start (earlier ++ later)).Resumable config onChain ∧
      CursorKept config (loopRun config start earlier).reader
        (loopRun config start (earlier ++ later)).reader := by
  have isSplit :
      loopRun config start (earlier ++ later) =
        loopRun config (loopRun config start earlier) later :=
    List.foldl_append
  have nothing :
      CoveredBelow config (start.unreported onChain) start.reader
        (scanFrom config start.reader) := by
    intro batch _ lower upper
    unfold scanFrom at upper
    rw [fresh] at upper
    exact absurd upper (Nat.not_lt.mpr lower)
  have executed :
      Runs.exec? (fun history call => some (loopCallStep config history call))
          start earlier =
        some (loopRun config start earlier) :=
    Runs.exec?_total _ start earlier
  obtain ⟨first, second⟩ := allowed.split executed
  have reached :=
    resumes_loopRun
      (fun call member => truthful call (List.mem_append_left later member))
      first nothing
  have resumes :=
    resumes_loopRun
      (fun call member =>
        truthful call (List.mem_append_right earlier member))
      second reached.covered
  rw [isSplit]
  refine ⟨fun cursor found batch owed upper => ?_, resumes.kept⟩
  refine (coveredBelow_unreported_iff _ _).mp resumes.covered batch owed ?_
  unfold scanFrom
  rw [found]
  exact Nat.lt_succ_of_le upper

def sampleHistory : ReaderHistory where
  reader := sampleReaderState
  reports := []

def sampleBackfillOptions
    (fromBlock toBlock : Nat) : BackfillOptions where
  fromBlock := fromBlock
  toBlock := toBlock
  chunkSize := none
  retentionThresholdBlocks := none

/-- A backfill at head 200 whose blob sources deliver the given answer. -/
def sampleBackfill
    (fetchBlob : Option Bytes) : BackfillAnswers where
  getBlockNumber := some 200
  getLogs := sampleGetLogs
  getBlockHeader := fun _ => some 0
  event := fun _ _ => {
    fetchBlob := fetchBlob
    decodeAnswer := fun _ => some ([⟨7, 0, [3]⟩], [1])
    verifyAnswer := fun _ _ _ _ => some true
    fate := .commits }
  commit := fun _ => .commits
  now := fun _ => 0

theorem sampleCalls_truthful
    {call : LoopCall}
    (isCall :
      call = .liveTailTick (sampleTick (some sampleTickBlob)) ∨
        ∃ options fetchBlob,
          call = .backfill options (sampleBackfill fetchBlob)) :
    call.Truthful sampleReader (· ∈ sampleLogs) := by
  rcases isCall with rfl | ⟨options, fetchBlob, rfl⟩
  · exact sampleTick_truthful (some sampleTickBlob)
  · exact sampleTick_truthful fetchBlob

/-- A backfill from the start block to block 150, which reads the batch. -/
def firstBackfill : LoopCall :=
  .backfill (sampleBackfillOptions 90 150)
    (sampleBackfill (some sampleTickBlob))

/-- A tick behind it, which scans on to block 168. -/
def tickBehind : LoopCall :=
  .liveTailTick (sampleTick (some sampleTickBlob))

/-- A backfill from the start block on, and a tick behind it. -/
theorem resumable_after_first_backfill :
    (loopRun sampleReader sampleHistory
          ([firstBackfill] ++ [tickBehind])).Resumable sampleReader
        (· ∈ sampleLogs) ∧
      CursorKept sampleReader
        (loopRun sampleReader sampleHistory [firstBackfill]).reader
        (loopRun sampleReader sampleHistory
          ([firstBackfill] ++ [tickBehind])).reader := by
  refine resumable_of_joins sampleReader (· ∈ sampleLogs) sampleHistory rfl
    [firstBackfill] [tickBehind] ?_ ?_
  · intro call member
    refine sampleCalls_truthful ?_
    rcases List.mem_append.mp member with isFirst | isSecond
    · exact .inr ⟨_, _, List.mem_singleton.mp isFirst⟩
    · exact .inl (List.mem_singleton.mp isSecond)
  · refine ⟨fun head isHead _ => ?_, trivial, trivial⟩
    cases isHead
    exact {
      final := .inl (by decide)
      adjoins := fun batch _ lower upper =>
        absurd upper (Nat.not_lt.mpr lower)
      ahead := fun cursor found => by cases found
      reached := fun _ _ _ _ _ _ _ _ _ => Option.some_ne_none sampleTickBlob }

/-- The batch registered in block 100. -/
def sampleBatchLog : ScannerBatchLog where
  blockNumber := 100
  transactionIndex := 0
  logIndex := 0
  transactionHash := 1
  args := {
    versionedHash := 1
    submitter := 9
    contentTag := 5
    decoder := 1
    signatureRegistry := 1 }

theorem sampleBatchLog_owed :
    Owed sampleReader (· ∈ sampleLogs) sampleBatchLog :=
  ⟨⟨_, List.mem_cons_self, rfl, rfl⟩, by decide⟩

/-- A history without reports that has reached no blob has settled
nothing. -/
theorem not_settled_of_nothing
    {history : ReaderHistory}
    (nothing :
      (history.reports.isEmpty &&
        history.reader.processed.all fun call =>
          call.outcome = .unreachable) = true)
    (batch : ScannerBatchLog) :
    ¬history.Settled batch := by
  rw [Bool.and_eq_true, List.isEmpty_iff, List.all_eq_true] at nothing
  obtain ⟨noReport, unreached⟩ := nothing
  rintro (⟨event, -, call, member, -, reached⟩ | ⟨report, member, -⟩)
  · exact reached (of_decide_eq_true (unreached call member))
  · rw [noReport] at member
    cases member

/-- The history after backfills of the given ranges, none of which reaches a
blob. -/
def sampleBackfills
    (ranges : List (Nat × Nat)) : ReaderHistory :=
  loopRun sampleReader sampleHistory
    (ranges.map fun range =>
      .backfill (sampleBackfillOptions range.1 range.2)
        (sampleBackfill none))

/-- A cursor behind the batch of block 100 whose blob was not reached. -/
theorem not_resumable_of_past
    {history : ReaderHistory}
    (past :
      (history.reader.cursor sampleReader).any (100 ≤ ·.lastBlockNumber) =
        true)
    (nothing :
      (history.reports.isEmpty &&
        history.reader.processed.all fun call =>
          call.outcome = .unreachable) = true) :
    ¬history.Resumable sampleReader (· ∈ sampleLogs) := by
  intro resumable
  cases found : history.reader.cursor sampleReader with
  | none =>
      rw [found] at past
      cases past
  | some cursor =>
      rw [found] at past
      exact not_settled_of_nothing nothing sampleBatchLog
        (resumable cursor found sampleBatchLog sampleBatchLog_owed
          (of_decide_eq_true past))

/-- A backfill passes over a blob it does not reach, and one that begins
behind a batch passes over the batch; a rerun of an older range moves the
cursor back. -/
theorem backfills_leave_gaps :
    (∀ options fetchBlob,
      (LoopCall.backfill options (sampleBackfill fetchBlob)).Truthful
        sampleReader (· ∈ sampleLogs)) ∧
    ¬(sampleBackfills [(90, 150)]).Resumable sampleReader
      (· ∈ sampleLogs) ∧
    ¬(sampleBackfills [(110, 150)]).Resumable sampleReader
      (· ∈ sampleLogs) ∧
    ¬CursorKept sampleReader (sampleBackfills [(90, 150)]).reader
      (sampleBackfills [(90, 150), (90, 120)]).reader := by
  refine ⟨fun options fetchBlob => sampleTick_truthful fetchBlob,
    not_resumable_of_past (by decide +kernel) (by decide +kernel),
    not_resumable_of_past (by decide +kernel) (by decide +kernel), ?_⟩
  have moved :
      ((sampleBackfills [(90, 150)]).reader.cursor sampleReader,
          (sampleBackfills [(90, 150), (90, 120)]).reader.cursor
            sampleReader) =
        (some ⟨1, 150, 0, 0⟩, some ⟨1, 120, 0, 0⟩) := by
    decide +kernel
  rw [Prod.mk.injEq] at moved
  intro kept
  obtain ⟨later, isLater, notLess⟩ := kept _ moved.1
  rw [moved.2] at isLater
  cases isLater
  exact absurd notLess (by decide)

end Bam
