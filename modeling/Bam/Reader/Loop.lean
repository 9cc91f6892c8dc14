import Bam.Lib.Attempt
import Bam.Reader.LogScan
import Bam.Reader.ReorgWatcher
import Mathlib.Data.List.Dedup

namespace Bam

/-!
# What the loops of a Reader share

The state of a Reader between two of its store transactions, its cursor, and
the pass over the events of one block.  What the network answers and how each
store transaction ends is part of the input, so an input covers every place an
attempt can be cut.
-/

structure ReaderCursorRow where
  chainId : Nat
  lastBlockNumber : Nat
  lastTxIndex : Nat
  updatedAt : Int
  deriving Repr, DecidableEq

/-- How a store transaction ends for its caller. -/
inductive StoreFate where
  | commits
  | rollsBack
  /-- The transaction commits and its caller meets an error. -/
  | unacknowledged
  deriving Repr, DecidableEq

/-- What a loop of a Reader throws. -/
inductive LoopError where
  | rpc
  | scan (error : ScanError)
  | process (error : ProcessBatchError)
  | store
  deriving Repr, DecidableEq

/-- A call of `processBatch` that has returned. -/
structure ProcessedBatch where
  opts : ProcessBatchOptions
  outcome : ProcessBatchOutcome

/-- The store, the counters of a Reader and what it has processed, the latest
first.  No step reads `processed`. -/
structure ReaderState where
  store : Store
  cursors : Table Nat ReaderCursorRow ReaderCursorRow.chainId
  counters : ReaderCounters
  processed : List ProcessedBatch

/-- The options the loops of a Reader share. -/
structure ReaderConfig where
  libraries : ReaderLibraries
  chainId : Nat
  contentTags : Option (List Bytes32)
  reorgWindowBlocks : Int
  startBlock : Nat
  logScanChunkBlocks : Nat

/-- An attempt of a store transaction that ended in an error: the store it
found, and the messages its callback had handled. -/
structure FailedAttempt where
  store : Store
  handled : Nat

/-- What the services behind `processBatch` answer for one call.  The failed
attempts of its transaction come before the one that commits; where none does,
the last of them ends the call. -/
structure EventAnswers where
  fetchBlob : Option Bytes
  decodeAnswer : Bytes → DecoderAnswer
  verifyAnswer : Nat → RegistryAnswer
  fate : StoreFate
  failed : List FailedAttempt := []

abbrev ReaderAttempt := Attempt ReaderState LoopError

/-- `buildProcessOpts`. -/
def ReaderConfig.processOptions
    (config : ReaderConfig)
    (event : BlobBatchRegisteredEvent)
    (timestampUnixSec : Nat)
    (answers : EventAnswers) : ProcessBatchOptions where
  event := event
  l1IncludedAtUnixSec := some timestampUnixSec
  chainId := config.chainId
  fetchBlob := answers.fetchBlob
  decodeAnswer := answers.decodeAnswer
  verifyAnswer := answers.verifyAnswer

/-- The bound of `withTxn` on the attempts it repeats. -/
def MAX_RETRIES : Nat := 5

/-- The conflicts a failed attempt met. -/
def FailedAttempt.conflicts
    (libraries : ReaderLibraries)
    (opts : ProcessBatchOptions)
    (verified : List VerifiedEntry)
    (attempt : FailedAttempt) : Nat :=
  (observeMessages libraries opts (verified.take attempt.handled)
    (attempt.store.upsertBatch (opts.batchRow libraries verified))
    emptyCounters 0).1.skippedConflict

/-- The conflicts that the failed attempts of a call have counted. -/
def retriedConflicts
    (libraries : ReaderLibraries)
    (opts : ProcessBatchOptions)
    (failed : List FailedAttempt) : Nat :=
  match readSegment libraries opts with
  | none => 0
  | some verified =>
      (failed.map (FailedAttempt.conflicts libraries opts verified)).sum

/-- The failed attempts that `withTxn` makes before it ends in `fate`. -/
def EventAnswers.attempted
    (answers : EventAnswers)
    (fate : StoreFate) : List FailedAttempt :=
  match fate with
  | .rollsBack => answers.failed.take (MAX_RETRIES + 1)
  | _ => answers.failed.take MAX_RETRIES

/-- One call of `processBatch`.  A rejected range opens no transaction, and
what a failed attempt has counted stays counted. -/
def processEvent
    (config : ReaderConfig)
    (event : BlobBatchRegisteredEvent)
    (timestampUnixSec : Nat)
    (answers : EventAnswers) : ReaderAttempt ProcessBatchResult :=
  fun state =>
    let opts := config.processOptions event timestampUnixSec answers
    match processBatch config.libraries opts state.store state.counters with
    | (counters, .error error) =>
        ({ state with counters }, .error (.process error))
    | (counters, .ok (store, result)) =>
        let fate :=
          if result.outcome = .range_rejected then .commits
          else answers.fate
        let retried :=
          retriedConflicts config.libraries opts (answers.attempted fate)
        match fate with
        | .commits =>
            ({ state with
                store := store
                counters := {
                  counters with
                  skippedConflict := counters.skippedConflict + retried }
                processed := ⟨opts, result.outcome⟩ :: state.processed },
              .ok result)
        | .rollsBack =>
            ({ state with
                counters := {
                  counters with
                  decoded := state.counters.decoded
                  skippedConflict :=
                    state.counters.skippedConflict + retried } },
              .error .store)
        | .unacknowledged =>
            ({ state with
                store := store
                counters := {
                  counters with
                  decoded := state.counters.decoded
                  skippedConflict := counters.skippedConflict + retried } },
              .error .store)

/-- How a call of `processBatch` can end. -/
theorem processEvent_cases
    (config : ReaderConfig)
    (event : BlobBatchRegisteredEvent)
    (timestampUnixSec : Nat)
    (answers : EventAnswers)
    (state : ReaderState) :
    (∃ counters error,
      processEvent config event timestampUnixSec answers state =
        ({ state with counters }, .error error)) ∨
    ∃ counters store result,
      processBatch config.libraries
          (config.processOptions event timestampUnixSec answers)
          state.store state.counters = (counters, .ok (store, result)) ∧
        ∃ counted,
          processEvent config event timestampUnixSec answers state =
              ({ state with
                  store := store
                  counters := counted
                  processed :=
                    ⟨config.processOptions event timestampUnixSec answers,
                      result.outcome⟩ :: state.processed }, .ok result) ∨
            processEvent config event timestampUnixSec answers state =
              ({ state with store := store, counters := counted },
                .error .store) := by
  simp only [processEvent]
  cases executed : processBatch config.libraries
      (config.processOptions event timestampUnixSec answers) state.store
      state.counters with
  | mk counters outcome =>
      cases outcome with
      | error error =>
          exact .inl ⟨counters, _, rfl⟩
      | ok returned =>
          obtain ⟨store, result⟩ := returned
          simp only
          cases (if result.outcome = .range_rejected then StoreFate.commits
            else answers.fate) with
          | commits =>
              exact .inr ⟨counters, store, result, rfl, _, .inl rfl⟩
          | rollsBack =>
              exact .inl ⟨_, _, rfl⟩
          | unacknowledged =>
              exact .inr ⟨counters, store, result, rfl, _, .inr rfl⟩

/-- What a pass over the events of a block accumulates. -/
structure BlockTally where
  maxTxIndex : Nat
  processed : Nat
  unreachable : Nat
  deriving Repr, DecidableEq

/-- The body of the loop over the events of a block. -/
def processNext
    (config : ReaderConfig)
    (timestampUnixSec : Nat)
    (answers : Nat → BlobBatchRegisteredEvent → EventAnswers)
    (tally : BlockTally)
    (event : BlobBatchRegisteredEvent) : ReaderAttempt BlockTally :=
  (processEvent config event timestampUnixSec
    (answers tally.processed event)).andThen fun result =>
      Attempt.done {
        maxTxIndex := max result.txIndex tally.maxTxIndex
        processed := tally.processed + 1
        unreachable :=
          if result.outcome = .unreachable then tally.unreachable + 1
          else tally.unreachable }

/-- The loop over the events of a block. -/
def processEvents
    (config : ReaderConfig)
    (timestampUnixSec : Nat)
    (answers : Nat → BlobBatchRegisteredEvent → EventAnswers) :
    BlockTally → List BlobBatchRegisteredEvent →
      ReaderAttempt BlockTally :=
  Attempt.fold (processNext config timestampUnixSec answers)

/-- `commitBlock`, whose callers write nothing but the cursor. -/
def commitBlock
    (config : ReaderConfig)
    (blockNumber lastTxIndex : Nat)
    (now : Int)
    (fate : StoreFate) : ReaderAttempt Unit :=
  fun state =>
    let next :=
      { state with
        cursors := state.cursors.put {
          chainId := config.chainId
          lastBlockNumber := blockNumber
          lastTxIndex := lastTxIndex
          updatedAt := now } }
    match fate with
    | .commits => (next, .ok ())
    | .rollsBack => (state, .error .store)
    | .unacknowledged => (next, .error .store)

/-- `getCursor`. -/
def ReaderState.cursor
    (state : ReaderState)
    (config : ReaderConfig) : Option ReaderCursorRow :=
  state.cursors.get? config.chainId

/-- `groupByBlock`: the blocks in ascending order, and the events of each in
log order. -/
def groupByBlock
    (events : List BlobBatchRegisteredEvent) :
    List (Nat × List BlobBatchRegisteredEvent) :=
  let blocks :=
    ((events.map BlobBatchRegisteredEvent.blockNumber).dedup).insertionSort
      (· ≤ ·)
  blocks.map fun blockNumber =>
    (blockNumber,
      (events.filter fun event => event.blockNumber = blockNumber).insertionSort
        fun first second => first.logIndex ≤ second.logIndex)

section Groups

variable {events : List BlobBatchRegisteredEvent}

/-- The blocks are visited in strictly ascending order. -/
theorem groupByBlock_ascending
    (events : List BlobBatchRegisteredEvent) :
    ((groupByBlock events).map Prod.fst).Pairwise (· < ·) := by
  have isBlocks :
      (groupByBlock events).map Prod.fst =
        ((events.map BlobBatchRegisteredEvent.blockNumber).dedup).insertionSort
          (· ≤ ·) := by
    simp [groupByBlock, Function.comp_def]
  rw [isBlocks]
  have distinct :
      (((events.map
        BlobBatchRegisteredEvent.blockNumber).dedup).insertionSort
          (· ≤ ·)).Nodup :=
    (List.perm_insertionSort _ _).nodup_iff.mpr (List.nodup_dedup _)
  exact (List.pairwise_insertionSort _ _).imp₂
    (fun _ _ => Nat.lt_of_le_of_ne) distinct

/-- A group holds exactly the events of its block. -/
theorem mem_group_iff
    {group : Nat × List BlobBatchRegisteredEvent}
    (isGroup : group ∈ groupByBlock events)
    (event : BlobBatchRegisteredEvent) :
    event ∈ group.2 ↔ event ∈ events ∧ event.blockNumber = group.1 := by
  obtain ⟨blockNumber, -, rfl⟩ := List.mem_map.mp isGroup
  simp

/-- The blocks are those of the events. -/
theorem mem_groupByBlock_iff
    (blockNumber : Nat) :
    blockNumber ∈ (groupByBlock events).map Prod.fst ↔
      ∃ event ∈ events, event.blockNumber = blockNumber := by
  simp [groupByBlock]

end Groups

/-- What the services behind the Reader's watcher answer in one tick. -/
structure WatchAnswers where
  getBlockNumber : Option Nat
  listed : Bool
  /-- The lookup for the candidate at a position; `none` where it throws. -/
  getTransactionBlock : Nat → Bytes32 → Option (Option Nat)
  now : Nat → Int
  fate : Nat → StoreFate

/-- What a watcher tick returns. -/
structure WatchResult where
  reorgedCount : Nat
  keptCount : Nat
  deriving Repr, DecidableEq

/-- The store transaction for a dropped batch. -/
def markDropped
    (config : ReaderConfig)
    (batch : BatchRow)
    (now : Int)
    (fate : StoreFate)
    (counted : WatchResult) : ReaderAttempt WatchResult :=
  fun state =>
    match readerReorgBatch config.chainId state.store batch now, fate with
    | .ok store, .commits => ({ state with store }, .ok counted)
    | .ok store, .unacknowledged => ({ state with store }, .error .store)
    | _, _ => (state, .error .store)

/-- The body of the loop of `ReaderReorgWatcher.tick`. -/
def watchNext
    (config : ReaderConfig)
    (answers : WatchAnswers)
    (tally : WatchResult)
    (batch : BatchRow) : ReaderAttempt WatchResult :=
  let position := tally.reorgedCount + tally.keptCount
  (Attempt.ofOption .rpc
    (answers.getTransactionBlock position batch.txHash)).andThen
    fun current =>
      match current with
      | some _ =>
          Attempt.done { tally with keptCount := tally.keptCount + 1 }
      | none =>
          markDropped config batch (answers.now position)
            (answers.fate position)
            { tally with reorgedCount := tally.reorgedCount + 1 }

/-- `ReaderReorgWatcher.tick`. -/
def readerReorgTick
    (config : ReaderConfig)
    (answers : WatchAnswers) : ReaderAttempt WatchResult :=
  (Attempt.ofOption .rpc answers.getBlockNumber).andThen fun head =>
    if answers.listed then
      Attempt.reading
        (fun state =>
          readerReorgCandidates config.chainId
            (some config.reorgWindowBlocks) state.store head)
        (Attempt.fold (watchNext config answers) ⟨0, 0⟩)
    else Attempt.fail .store

end Bam
