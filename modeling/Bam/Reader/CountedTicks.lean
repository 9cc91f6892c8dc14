import Bam.Reader.Counters

namespace Bam

/-!
# What a run of ticks counts

The counters of a Reader are compared with a ledger of the blocks its cursor
has committed, each with the outcomes of the calls of the pass that committed
it.  A pass over a block adds what its calls add, and nothing when it parks.
-/

/-- A pass of a tick over a block. -/
abbrev BlockPass :=
  Attempt.Iteration LoopTally (Nat × List BlobBatchRegisteredEvent)
    ReaderState

/-- How a pass over a block ends. -/
inductive BlockEnd where
  /-- An earlier block is parked, or the header is not read. -/
  | skipped
  | threw
  | parked
  | uncommitted
  | committed
  deriving Repr, DecidableEq

section Pass

variable (config : ReaderConfig) (answers : TickAnswers)

/-- The loop of a pass over the events of its block. -/
def passEvents
    (timestampUnixSec : Nat)
    (pass : BlockPass) : ReaderAttempt BlockTally :=
  processEvents config timestampUnixSec answers.event
    { maxTxIndex := 0
      processed := pass.value.processed
      unreachable := 0 } pass.item.2

/-- The calls of a pass. -/
def passCalls
    (pass : BlockPass) : List BatchCall :=
  if pass.value.blockedByTransient then []
  else
    match answers.getBlockHeader pass.item.1 with
    | none => []
    | some timestampUnixSec =>
        (Attempt.iterations
          (processNext config timestampUnixSec answers.event)
          { maxTxIndex := 0
            processed := pass.value.processed
            unreachable := 0 } pass.item.2 pass.before).map fun call =>
          callFor config call.item timestampUnixSec
            (answers.event call.value.processed call.item) call.before

def passEnd
    (pass : BlockPass) : BlockEnd :=
  if pass.value.blockedByTransient then .skipped
  else
    match answers.getBlockHeader pass.item.1 with
    | none => .skipped
    | some timestampUnixSec =>
        match (passEvents config answers timestampUnixSec pass
            pass.before).2 with
        | .error _ => .threw
        | .ok block =>
            if block.unreachable ≠ 0 then .parked
            else
              match answers.commit pass.item.1 with
              | .rollsBack => .uncommitted
              | _ => .committed

/-- What a pass adds to the counters. -/
def passGain
    (pass : BlockPass) : ReaderCounters :=
  match passEnd config answers pass with
  | .skipped => 0
  | .parked => 0
  | _ =>
      ((passCalls config answers pass).map
        (BatchCall.gain config.libraries)).sum

/-- The line of the ledger a pass writes: the block it commits, if the cursor
has not committed it before. -/
def passEntry
    (committed : List (Nat × ReaderCounters))
    (pass : BlockPass) : List (Nat × ReaderCounters) :=
  if passEnd config answers pass = .committed ∧
      pass.item.1 ∉ committed.map Prod.fst then
    [(pass.item.1,
      ((passCalls config answers pass).map
        (BatchCall.outcome config.libraries)).sum)]
  else []

/-- A pass that commits a new block has met no conflict in a failed attempt; a
pass that is cut, or commits nothing new, has been silent. -/
def PassUndisturbed
    (committed : List (Nat × ReaderCounters))
    (pass : BlockPass) : Prop :=
  match passEnd config answers pass with
  | .skipped => True
  | .parked => True
  | .committed =>
      if pass.item.1 ∈ committed.map Prod.fst then
        ∀ call ∈ passCalls config answers pass,
          call.Silent config.libraries
      else
        ∀ call ∈ passCalls config answers pass,
          call.retried config.libraries .commits = 0
  | _ =>
      ∀ call ∈ passCalls config answers pass, call.Silent config.libraries

end Pass

section PassResults

variable (config : ReaderConfig) (answers : TickAnswers)

/-- The loop over the events of a block adds what its calls add. -/
theorem gains_passEvents
    {timestampUnixSec : Nat}
    (pass : BlockPass)
    (unblocked : pass.value.blockedByTransient = false)
    (header : answers.getBlockHeader pass.item.1 = some timestampUnixSec) :
    ((passEvents config answers timestampUnixSec pass
        pass.before).1).counters =
      pass.before.counters +
        ((passCalls config answers pass).map
          (BatchCall.gain config.libraries)).sum := by
  have each :
      ∀ tally event,
        Attempt.Gains ReaderState.counters
          (processNext config timestampUnixSec answers.event tally event)
          fun before =>
            (callFor config event timestampUnixSec
              (answers.event tally.processed event) before).gain
                config.libraries :=
    fun tally event =>
      (gains_processEvent config event timestampUnixSec _).andThen_keeps
        fun result => Attempt.keeps_done _
  have gained :=
    Attempt.gains_fold each
      { maxTxIndex := 0
        processed := pass.value.processed
        unreachable := 0 } pass.item.2 pass.before
  unfold passEvents processEvents passCalls
  rw [gained, unblocked, if_neg Bool.false_ne_true, header]
  dsimp only
  rw [List.map_map]
  rfl

/-- A pass adds its gain, wherever it is cut. -/
theorem gains_liveTailBlock
    (tally : LoopTally)
    (group : Nat × List BlobBatchRegisteredEvent) :
    Attempt.Gains ReaderState.counters
      (liveTailBlock config answers tally group) fun before =>
        passGain config answers ⟨tally, group, before⟩ := by
  intro before
  unfold liveTailBlock passGain passEnd
  dsimp only
  cases blocked : tally.blockedByTransient with
  | true => exact (add_zero _).symm
  | false =>
      simp only [Bool.false_eq_true, if_false]
      cases header : answers.getBlockHeader group.1 with
      | none => exact (add_zero _).symm
      | some timestampUnixSec =>
          have gained :=
            gains_passEvents config answers ⟨tally, group, before⟩
              blocked header
          unfold passEvents at gained ⊢
          dsimp only [Attempt.ofOption, Attempt.andThen, Attempt.done,
            Attempt.reading] at gained ⊢
          cases executed : processEvents config timestampUnixSec
              answers.event
              { maxTxIndex := 0
                processed := tally.processed
                unreachable := 0 } group.2 before with
          | mk after outcome =>
              rw [executed] at gained
              cases outcome with
              | error error => exact gained
              | ok block =>
                  dsimp only at gained ⊢
                  unfold settleBlock
                  split
                  · exact (add_zero _).symm
                  · unfold commitBlock
                    cases answers.commit group.1 with
                    | commits => exact gained
                    | rollsBack => exact gained
                    | unacknowledged => exact gained

/-- The calls of a pass that is not cut have all returned. -/
theorem gain_of_passed
    {pass : BlockPass}
    {call : BatchCall}
    (isCommitted : passEnd config answers pass = .committed)
    (member : call ∈ passCalls config answers pass) :
    call.gain config.libraries =
      call.outcome config.libraries +
        .ofMessages 0 0 (call.retried config.libraries .commits) := by
  unfold passEnd at isCommitted
  unfold passCalls at member
  split at isCommitted
  · cases isCommitted
  rename_i unblocked
  rw [if_neg unblocked] at member
  cases header : answers.getBlockHeader pass.item.1 with
  | none =>
      rw [header] at member
      cases member
  | some timestampUnixSec =>
      rw [header] at member isCommitted
      dsimp only at member isCommitted
      obtain ⟨iteration, isIteration, isCall⟩ := List.mem_map.mp member
      unfold passEvents processEvents at isCommitted
      cases executed : Attempt.fold
          (processNext config timestampUnixSec answers.event)
          { maxTxIndex := 0
            processed := pass.value.processed
            unreachable := 0 } pass.item.2 pass.before with
      | mk after outcome =>
          rw [executed] at isCommitted
          cases outcome with
          | error error => cases isCommitted
          | ok block =>
              obtain ⟨between, next, returned⟩ :=
                Attempt.iterations_returned executed iteration isIteration
              unfold processNext Attempt.andThen at returned
              dsimp only at returned
              cases called : processEvent config iteration.item
                  timestampUnixSec
                  (answers.event iteration.value.processed iteration.item)
                  iteration.before with
              | mk calledAfter result =>
                  rw [called] at returned
                  cases result with
                  | error error => cases returned
                  | ok result =>
                      subst isCall
                      exact gain_of_returned called

/-- The calls of a pass add nothing exactly if they are silent. -/
theorem sum_gain_eq_zero_iff
    (calls : List BatchCall) :
    (calls.map (BatchCall.gain config.libraries)).sum = 0 ↔
      ∀ call ∈ calls, call.Silent config.libraries :=
  Attempt.sum_eq_zero_iff_of_add ReaderCounters.add_eq_zero_iff
    (gain_eq_zero_iff config.libraries) calls

/-- A pass adds at least what its line of the ledger says, and exactly that
if it is undisturbed. -/
theorem dues_pass
    (committed : List (Nat × ReaderCounters))
    (pass : BlockPass) :
    Attempt.Dues (passGain config answers pass)
      ((passEntry config answers committed pass).map Prod.snd).sum
      (PassUndisturbed config answers committed pass) := by
  have silent :=
    sum_gain_eq_zero_iff config (passCalls config answers pass)
  unfold passGain passEntry PassUndisturbed
  cases ending : passEnd config answers pass with
  | skipped => exact Attempt.dues_self trivial
  | threw => exact Attempt.dues_nothing silent
  | parked => exact Attempt.dues_self trivial
  | uncommitted => exact Attempt.dues_nothing silent
  | committed =>
      by_cases isOld : pass.item.1 ∈ committed.map Prod.fst
      · rw [if_neg fun isNew => isNew.2 isOld]
        dsimp only
        rw [if_pos isOld]
        exact Attempt.dues_nothing silent
      · rw [if_pos ⟨rfl, isOld⟩]
        dsimp only
        rw [if_neg isOld]
        simp only [List.map_cons, List.map_nil, List.sum_singleton]
        refine Attempt.dues_sum ReaderCounters.add_eq_zero_iff
          fun call member => ?_
        exact ⟨_, gain_of_passed config answers ending member,
          ReaderCounters.ofMessages_eq_zero_iff.trans
            ⟨fun same => same.2.2, fun same => ⟨rfl, rfl, same⟩⟩⟩

end PassResults

section Tick

variable (config : ReaderConfig) (answers : TickAnswers)

/-- The passes of a tick. -/
def tickPasses
    (before : ReaderState) : List BlockPass :=
  match answers.getBlockNumber with
  | none => []
  | some head =>
      let fromBlock := scanFrom config before
      let toBlock : Int := (head : Int) - config.reorgWindowBlocks
      if ¬answers.cursorRead ∨ toBlock < fromBlock then []
      else
        match scanLogs answers.getLogs (some config.logScanChunkBlocks)
            fromBlock toBlock.toNat with
        | .error _ => []
        | .ok events =>
            Attempt.iterations (liveTailBlock config answers)
              LoopTally.start (groupByBlock events) before

/-- Moving the cursor counts nothing. -/
theorem keeps_commitBlock
    (blockNumber lastTxIndex : Nat)
    (now : Int)
    (fate : StoreFate) :
    Attempt.Keeps ReaderState.counters
      (commitBlock config blockNumber lastTxIndex now fate) := by
  intro before
  cases fate with
  | commits => exact (add_zero _).symm
  | rollsBack => exact (add_zero _).symm
  | unacknowledged => exact (add_zero _).symm

theorem keeps_catchUp
    (toBlock : Nat)
    (groups : List (Nat × List BlobBatchRegisteredEvent))
    (tally : LoopTally) :
    Attempt.Keeps ReaderState.counters
      (catchUp config answers toBlock groups tally) := by
  unfold catchUp
  split
  · exact keeps_commitBlock config _ _ _ _
  · exact Attempt.keeps_done _

theorem keeps_markDropped
    (batch : BatchRow)
    (now : Int)
    (fate : StoreFate)
    (counted : WatchResult) :
    Attempt.Keeps ReaderState.counters
      (markDropped config batch now fate counted) := by
  intro before
  unfold markDropped
  dsimp only
  cases readerReorgBatch config.chainId before.store batch now with
  | error error => exact (add_zero before.counters).symm
  | ok store =>
      cases fate with
      | commits => exact (add_zero before.counters).symm
      | rollsBack => exact (add_zero before.counters).symm
      | unacknowledged => exact (add_zero before.counters).symm

/-- The watcher counts nothing. -/
theorem keeps_readerReorgTick
    (watch : WatchAnswers) :
    Attempt.Keeps ReaderState.counters (readerReorgTick config watch) := by
  have each :
      ∀ tally batch,
        Attempt.Keeps ReaderState.counters
          (watchNext config watch tally batch) := by
    intro tally batch
    refine (Attempt.keeps_ofOption _ _).andThen_keeps fun current => ?_
    cases current with
    | some block => exact Attempt.keeps_done _
    | none => exact keeps_markDropped config batch _ _ _
  refine (Attempt.keeps_ofOption _ _).andThen_keeps fun head => ?_
  split
  · exact fun before => Attempt.keeps_fold each _ _ before
  · exact Attempt.keeps_fail _

/-- A tick adds what its passes add, wherever it is cut. -/
theorem gains_liveTailTick :
    Attempt.Gains ReaderState.counters (liveTailTick config answers)
      fun before =>
        ((tickPasses config answers before).map
          (passGain config answers)).sum := by
  intro before
  unfold liveTailTick tickPasses
  cases answers.getBlockNumber with
  | none => exact (add_zero _).symm
  | some head =>
      dsimp only [Attempt.ofOption, Attempt.andThen, Attempt.done]
      by_cases isRead : answers.cursorRead
      · rw [if_pos isRead]
        simp only [isRead, not_true_eq_false, false_or]
        unfold Attempt.reading liveTailFrom
        split
        · exact (add_zero _).symm
        · unfold liveTailRange
          cases scanLogs answers.getLogs (some config.logScanChunkBlocks)
              (scanFrom config before)
              ((head : Int) - config.reorgWindowBlocks).toNat with
          | error error => exact (add_zero _).symm
          | ok events =>
              exact (Attempt.gains_fold
                (gains_liveTailBlock config answers) LoopTally.start
                (groupByBlock events)).andThen_keeps
                  (fun tally =>
                    (keeps_catchUp config answers _ _ _).andThen_keeps
                      fun _ =>
                        (keeps_readerReorgTick config _).andThen_keeps
                          fun watch => Attempt.keeps_done _) before
      · rw [if_neg isRead]
        simp only [isRead]
        exact (add_zero _).symm

end Tick

section Runs

variable (config : ReaderConfig)

/-- A Reader with the ledger of the blocks its cursor has committed. -/
structure CountedReader where
  reader : ReaderState
  committed : List (Nat × ReaderCounters)

/-- The lines of the ledger a tick writes. -/
def tickEntries
    (answers : TickAnswers)
    (counted : CountedReader) : List (Nat × ReaderCounters) :=
  (tickPasses config answers counted.reader).flatMap
    (passEntry config answers counted.committed)

/-- A tick of a Reader and of its ledger. -/
def CountedReader.tick
    (counted : CountedReader)
    (answers : TickAnswers) : CountedReader where
  reader := (liveTailTick config answers counted.reader).1
  committed := counted.committed ++ tickEntries config answers counted

def countedTick
    (counted : CountedReader)
    (answers : TickAnswers) : Option CountedReader :=
  some (counted.tick config answers)

/-- Every committed block is counted once, and nothing else is counted. -/
structure CountedReader.Exact
    (counted : CountedReader) : Prop where
  once : (counted.committed.map Prod.fst).Nodup
  total :
    counted.reader.counters = (counted.committed.map Prod.snd).sum

/-- Every pass of a tick is undisturbed. -/
def TickUndisturbed
    (counted : CountedReader)
    (answers : TickAnswers) : Prop :=
  ∀ pass ∈ tickPasses config answers counted.reader,
    PassUndisturbed config answers counted.committed pass

/-- The passes of a tick are over different blocks. -/
theorem tickPasses_distinct
    (answers : TickAnswers)
    (before : ReaderState) :
    ((tickPasses config answers before).map fun pass =>
      pass.item.1).Nodup := by
  unfold tickPasses
  cases answers.getBlockNumber with
  | none => exact List.nodup_nil
  | some head =>
      dsimp only
      split
      · exact List.nodup_nil
      · cases scanLogs answers.getLogs (some config.logScanChunkBlocks)
            (scanFrom config before)
            ((head : Int) - config.reorgWindowBlocks).toNat with
        | error error => exact List.nodup_nil
        | ok events =>
            have inOrder :=
              (Attempt.items_iterations (liveTailBlock config answers)
                LoopTally.start (groupByBlock events)
                before).sublist.map Prod.fst
            rw [List.map_map] at inOrder
            exact ((groupByBlock_ascending events).sublist
              inOrder).imp Nat.ne_of_lt

/-- A line of the ledger is for the block of its pass, and new. -/
theorem mem_passEntry
    {answers : TickAnswers}
    {committed : List (Nat × ReaderCounters)}
    {pass : BlockPass}
    {line : Nat × ReaderCounters}
    (member : line ∈ passEntry config answers committed pass) :
    line.1 = pass.item.1 ∧ pass.item.1 ∉ committed.map Prod.fst := by
  unfold passEntry at member
  split at member
  · rename_i isNew
    rw [List.mem_singleton.mp member]
    exact ⟨rfl, isNew.2⟩
  · cases member

/-- The blocks of new lines are those of passes, in their order. -/
theorem blocks_passEntries
    (answers : TickAnswers)
    (committed : List (Nat × ReaderCounters))
    (passes : List BlockPass) :
    ((passes.flatMap (passEntry config answers committed)).map
        Prod.fst).Sublist
      (passes.map fun pass => pass.item.1) := by
  induction passes with
  | nil => exact List.Sublist.slnil
  | cons pass rest inductionHypothesis =>
      rw [List.flatMap_cons, List.map_append, List.map_cons]
      unfold passEntry
      split
      · exact inductionHypothesis.cons_cons _
      · exact inductionHypothesis.cons _

variable {config}

/-- No block gets a second line. -/
theorem once_tick
    {answers : TickAnswers}
    {counted : CountedReader}
    (once : (counted.committed.map Prod.fst).Nodup) :
    ((counted.committed ++ tickEntries config answers counted).map
      Prod.fst).Nodup := by
  rw [List.map_append]
  refine once.append ?_ ?_
  · exact (tickPasses_distinct config answers counted.reader).sublist
      (blocks_passEntries config answers counted.committed _)
  · intro block isOld isNew
    obtain ⟨line, isLine, rfl⟩ := List.mem_map.mp isNew
    obtain ⟨pass, -, isEntry⟩ := List.mem_flatMap.mp isLine
    obtain ⟨isBlock, isFresh⟩ := mem_passEntry config isEntry
    exact isFresh (isBlock ▸ isOld)

/-- A tick from an exact state leads to an exact state if and only if all its
passes are undisturbed. -/
theorem exact_tick_iff
    {counted : CountedReader}
    (isExact : counted.Exact)
    (answers : TickAnswers) :
    (counted.tick config answers).Exact ↔
      TickUndisturbed config counted answers := by
  have dues :=
    Attempt.dues_sum ReaderCounters.add_eq_zero_iff
      (fun pass (_ : pass ∈ tickPasses config answers counted.reader) =>
        dues_pass config answers counted.committed pass)
  have newLines :
      ((tickEntries config answers counted).map Prod.snd).sum =
        ((tickPasses config answers counted.reader).map fun pass =>
          ((passEntry config answers counted.committed pass).map
            Prod.snd).sum).sum := by
    rw [tickEntries, List.map_flatMap, List.flatMap_def,
      List.sum_flatten, List.map_map]
    rfl
  have gained := gains_liveTailTick config answers counted.reader
  have isTotal :
      (liveTailTick config answers counted.reader).1.counters =
          ((counted.committed ++
            tickEntries config answers counted).map Prod.snd).sum ↔
        ((tickPasses config answers counted.reader).map
            (passGain config answers)).sum =
          ((tickEntries config answers counted).map Prod.snd).sum := by
    rw [gained, List.map_append, List.sum_append, ← isExact.total]
    exact add_left_cancel_iff
  rw [newLines] at isTotal
  exact ⟨fun exactly => dues.eq_iff.mp (isTotal.mp exactly.total),
    fun undisturbed =>
      { once := once_tick isExact.once
        total := isTotal.mpr (dues.eq_iff.mpr undisturbed) }⟩

/-- A call that counts in a pass that throws leaves the counters wrong. -/
theorem inexact_of_threw
    {counted : CountedReader}
    {answers : TickAnswers}
    {pass : BlockPass}
    {call : BatchCall}
    (isExact : counted.Exact)
    (isPass : pass ∈ tickPasses config answers counted.reader)
    (threw : passEnd config answers pass = .threw)
    (isCall : call ∈ passCalls config answers pass)
    (counts : ¬call.Silent config.libraries) :
    ¬(counted.tick config answers).Exact := by
  intro nextExact
  have undisturbed :=
    (exact_tick_iff isExact answers).mp nextExact pass isPass
  unfold PassUndisturbed at undisturbed
  rw [threw] at undisturbed
  exact counts (undisturbed call isCall)

/-- The counters of a Reader are exact after every tick of a run if and only
if all its passes are undisturbed. -/
theorem counters_exact_iff
    (config : ReaderConfig)
    (start : CountedReader)
    (isExact : start.Exact)
    (ticks : List TickAnswers) :
    Runs.AllStates (countedTick config) CountedReader.Exact start ticks ↔
      Runs.AllSteps (countedTick config) (TickUndisturbed config) start
        ticks :=
  Runs.allStates_iff_allSteps
    (fun (_ : True) _ => trivial)
    (fun {_ answers _} _ isExact taken =>
      Option.some.inj taken ▸ exact_tick_iff isExact answers)
    ticks trivial isExact

end Runs

section Undecoded

/-- The event of the batch in block 100. -/
def sampleEvent : BlobBatchRegisteredEvent where
  blockNumber := 100
  txIndex := 0
  logIndex := 0
  txHash := 1
  versionedHash := 1
  submitter := 9
  contentTag := 5
  decoder := 1
  signatureRegistry := 1
  startFE := some 0
  endFE := some 4096

theorem scanLogs_sample :
    scanLogs sampleGetLogs (some 2000) 90 168 = .ok [sampleEvent] := by
  have fetched :
      fetchWithHalving sampleGetLogs 90 79 = .ok [sampleEvent] := by
    have answered : sampleGetLogs 90 (90 + 79 - 1) = .ok sampleLogs := by
      decide
    unfold fetchWithHalving
    rw [answered]
    decide
  have isWhole :
      scanLogs sampleGetLogs (some 2000) 90 168 =
        (fetchWithHalving sampleGetLogs 90 79).map fun events =>
          events.insertionSort fun first second =>
            first.comesBefore second := rfl
  rw [isWhole, fetched]
  rfl

variable (blobBytes : Bytes)

/-- The answers for a batch that its decoder rejects and whose store
transaction rolls back. -/
def undecodedAnswers : EventAnswers where
  fetchBlob := some blobBytes
  decodeAnswer := fun _ => none
  verifyAnswer := fun _ _ _ _ => some true
  fate := .rollsBack

def undecodedTick : TickAnswers :=
  { sampleTick none with event := fun _ _ => undecodedAnswers blobBytes }

def samplePass : BlockPass where
  value := .start
  item := (100, [sampleEvent])
  before := sampleReaderState

theorem tickPasses_undecoded :
    tickPasses sampleReader (undecodedTick blobBytes) sampleReaderState =
      [samplePass] := by
  have isScan :
      scanLogs (undecodedTick blobBytes).getLogs
          (some sampleReader.logScanChunkBlocks)
          (scanFrom sampleReader sampleReaderState) 168 =
        .ok [sampleEvent] := scanLogs_sample
  have isGroup :
      groupByBlock [sampleEvent] = [(100, [sampleEvent])] := by decide
  have isPass :
      tickPasses sampleReader (undecodedTick blobBytes)
          sampleReaderState =
        match scanLogs (undecodedTick blobBytes).getLogs
            (some sampleReader.logScanChunkBlocks)
            (scanFrom sampleReader sampleReaderState) 168 with
        | .error _ => []
        | .ok events =>
            Attempt.iterations
              (liveTailBlock sampleReader (undecodedTick blobBytes))
              LoopTally.start (groupByBlock events)
              sampleReaderState := rfl
  rw [isPass, isScan]
  dsimp only
  rw [isGroup]
  dsimp only [Attempt.iterations]
  split
  · rfl
  · rfl

/-- The call for the batch. -/
def undecodedCall : BatchCall :=
  callFor sampleReader sampleEvent 0 (undecodedAnswers blobBytes)
    sampleReaderState

variable {blobBytes}

theorem readingOf_undecodedCall
    (long : 4096 * BYTES_PER_FIELD_ELEMENT ≤ blobBytes.length) :
    readingOf sampleReader.libraries (undecodedCall blobBytes).opts =
      .undecoded := by
  have inRange : ValidRange (0, 4096) := rfl
  have onChain : sampleEvent.decoder ≠ 0 := by decide
  exact readingOf_undecoded _ _ rfl rfl inRange rfl long onChain
    fun _ => rfl

/-- The pass is cut by the store transaction of its call. -/
theorem passEnd_undecoded
    (long : 4096 * BYTES_PER_FIELD_ELEMENT ≤ blobBytes.length) :
    passEnd sampleReader (undecodedTick blobBytes) samplePass = .threw := by
  have failed :
      (processEvent sampleReader sampleEvent 0
        (undecodedAnswers blobBytes) sampleReaderState).2 =
          .error .store := by
    have reading := readingOf_undecodedCall long
    unfold undecodedCall callFor at reading
    dsimp only at reading
    unfold processEvent
    dsimp only
    rw [processBatch_of_reading, reading]
    rfl
  have unblocked : ¬samplePass.value.blockedByTransient = true :=
    Bool.false_ne_true
  have header :
      (undecodedTick blobBytes).getBlockHeader samplePass.item.1 =
        some 0 := rfl
  have isEvents : samplePass.item.2 = [sampleEvent] := rfl
  have isBefore : samplePass.before = sampleReaderState := rfl
  have isAnswers :
      ∀ index event,
        (undecodedTick blobBytes).event index event =
          undecodedAnswers blobBytes := fun _ _ => rfl
  unfold passEnd passEvents processEvents
  rw [if_neg unblocked, header, isEvents, isBefore]
  dsimp only [Attempt.fold, Attempt.andThen, processNext]
  rw [isAnswers]
  cases called : processEvent sampleReader sampleEvent 0
      (undecodedAnswers blobBytes) sampleReaderState with
  | mk after outcome =>
      rw [called] at failed
      dsimp only at failed
      rw [failed]

theorem undecodedCall_mem :
    undecodedCall blobBytes ∈
      passCalls sampleReader (undecodedTick blobBytes) samplePass := by
  have unblocked : ¬samplePass.value.blockedByTransient = true :=
    Bool.false_ne_true
  have header :
      (undecodedTick blobBytes).getBlockHeader samplePass.item.1 =
        some 0 := rfl
  have isEvents : samplePass.item.2 = [sampleEvent] := rfl
  unfold passCalls
  rw [if_neg unblocked, header, isEvents]
  exact List.mem_map.mpr ⟨_, List.mem_cons_self, rfl⟩

theorem inexact_undecoded
    (long : 4096 * BYTES_PER_FIELD_ELEMENT ≤ blobBytes.length)
    (start : CountedReader.Exact ⟨sampleReaderState, []⟩) :
    ¬CountedReader.Exact
      (CountedReader.tick sampleReader ⟨sampleReaderState, []⟩
        (undecodedTick blobBytes)) := by
  have member :
      samplePass ∈
        tickPasses sampleReader (undecodedTick blobBytes)
          sampleReaderState := by
    rw [tickPasses_undecoded]
    exact List.mem_singleton_self samplePass
  have counts :
      ¬(undecodedCall blobBytes).Silent sampleReader.libraries := by
    unfold BatchCall.Silent
    rw [readingOf_undecodedCall long]
    exact not_false
  exact inexact_of_threw start member (passEnd_undecoded long)
    undecodedCall_mem counts

end Undecoded

/-- A batch whose decoder rejects it and whose store transaction throws is
counted, and its block is not committed. -/
theorem counters_count_uncommitted :
    ¬Runs.AllStates (countedTick sampleReader) CountedReader.Exact
      ⟨sampleReaderState, []⟩
      [undecodedTick (List.replicate 131072 0)] := by
  have long :
      4096 * BYTES_PER_FIELD_ELEMENT ≤
        (List.replicate 131072 (0 : UInt8)).length := by
    rw [List.length_replicate]
    decide
  intro all
  simp only [Runs.AllStates, countedTick] at all
  exact inexact_undecoded long all.1 all.2

/-- A tick that parks, and one that counts the batch and commits its block. -/
theorem counters_exact_after_park :
    CountedReader.Exact ⟨sampleReaderState, []⟩ ∧
      (Runs.AllStates (countedTick sampleReader) CountedReader.Exact
          ⟨sampleReaderState, []⟩
          [sampleTick none, sampleTick (some sampleTickBlob)] ↔
        Runs.AllSteps (countedTick sampleReader)
          (TickUndisturbed sampleReader) ⟨sampleReaderState, []⟩
          [sampleTick none, sampleTick (some sampleTickBlob)]) := by
  have start : CountedReader.Exact ⟨sampleReaderState, []⟩ :=
    ⟨List.nodup_nil, rfl⟩
  exact ⟨start, counters_exact_iff sampleReader _ start _⟩

end Bam
