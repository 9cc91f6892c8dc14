import Bam.Reader.Pairing

namespace Bam

/-!
# Scans of a range, however it is cut

A scan pages and halves its range and pairs every piece by itself.  A
transaction is in one block, so its logs are in one piece, and what comes back
is the registered batches of the range, once each and in order, whatever the
pieces were.
-/

/-- The logs of a chain: a position holds one log, and a transaction is in one
block. -/
structure ChainLogs (chain : List ScannerLog) : Prop where
  positions :
    chain.Pairwise fun first second =>
      first.blockNumber = second.blockNumber →
        first.logIndex ≠ second.logIndex
  oneBlock :
    ∀ first ∈ chain, ∀ second ∈ chain,
      first.transactionHash = second.transactionHash →
        first.blockNumber = second.blockNumber

/-- The logs of a range of blocks. -/
def logsBetween
    (chain : List ScannerLog)
    (fromBlock toBlock : Nat) : List ScannerLog :=
  chain.filter fun log =>
    fromBlock ≤ log.blockNumber ∧ log.blockNumber ≤ toBlock

/-- A provider that rejects some ranges as too large and answers the others
with their logs. -/
def AnswersTruthfully
    (chain : List ScannerLog)
    (getLogs : LogScanClient) : Prop :=
  ∀ fromBlock toBlock,
    getLogs fromBlock toBlock = .error .rangeTooLarge ∨
      ∃ logs, getLogs fromBlock toBlock = .ok logs ∧
        logs.Perm (logsBetween chain fromBlock toBlock)

/-- The events of the batches registered in a range, each with its paired
segment range. -/
def registeredBetween
    (chain : List ScannerLog)
    (fromBlock toBlock : Nat) : List BlobBatchRegisteredEvent :=
  ((logsBetween chain fromBlock toBlock).filterMap
    ScannerLog.batchLog?).map fun batch =>
      batch.toEvent (pairedRange chain batch)

/-- `(blockNumber, logIndex)` order. -/
def BlobBatchRegisteredEvent.StrictlyBefore
    (first second : BlobBatchRegisteredEvent) : Prop :=
  first.blockNumber < second.blockNumber ∨
    first.blockNumber = second.blockNumber ∧
      first.logIndex < second.logIndex

section Chain

variable {chain : List ScannerLog}
variable {getLogs : LogScanClient}
variable {chunkSize : Option Nat}
variable {fromBlock toBlock : Nat}
variable {events : List BlobBatchRegisteredEvent}

theorem ChainLogs.distinct
    (onChain : ChainLogs chain) :
    DistinctPositions chain := by
  refine onChain.positions.imp_of_mem ?_
  intro first second isFirst isSecond apart sameTx
  exact apart (onChain.oneBlock first isFirst second isSecond sameTx)

theorem DistinctPositions.logsBetween
    (distinct : DistinctPositions chain) :
    DistinctPositions (logsBetween chain fromBlock toBlock) :=
  distinct.filter _

/-- A piece holds all logs of a transaction of its batches. -/
theorem pairedRange_logsBetween
    (onChain : ChainLogs chain)
    {batch : ScannerBatchLog}
    (member :
      batch ∈ (logsBetween chain fromBlock toBlock).filterMap
        ScannerLog.batchLog?) :
    pairedRange (logsBetween chain fromBlock toBlock) batch =
      pairedRange chain batch := by
  obtain ⟨log, isLog, isBatch⟩ := List.mem_filterMap.mp member
  obtain ⟨inChain, inRange⟩ := List.mem_filter.mp isLog
  have ofTx : batch.transactionHash = log.transactionHash :=
    (batchLog?_position isBatch).1
  have whole :
      (logsBetween chain fromBlock toBlock).filter
          (fun other => other.transactionHash = batch.transactionHash) =
        chain.filter fun other =>
          other.transactionHash = batch.transactionHash := by
    rw [logsBetween, List.filter_filter]
    apply List.filter_congr
    intro other isOther
    by_cases sameTx : other.transactionHash = batch.transactionHash
    · have sameBlock :=
        onChain.oneBlock other isOther log inChain
          (sameTx.trans ofTx)
      rw [sameBlock]
      simpa [sameTx] using inRange
    · simp [sameTx]
  rw [pairedRange, pairedRange, positionedItems, positionedItems, whole]

/-- An answer is read as the batches of its range. -/
theorem eventsOfLogs_perm
    (onChain : ChainLogs chain)
    {logs : List ScannerLog}
    (same : logs.Perm (logsBetween chain fromBlock toBlock)) :
    (eventsOfLogs logs).Perm
      (registeredBetween chain fromBlock toBlock) := by
  have read :
      eventsOfLogs logs =
        (logs.filterMap ScannerLog.batchLog?).map fun batch =>
          batch.toEvent (pairedRange chain batch) := by
    conv_rhs =>
      rw [← List.zipIdx_map_fst 0 (logs.filterMap ScannerLog.batchLog?),
        List.map_map]
    rw [eventsOfLogs]
    apply List.map_congr_left
    rintro ⟨batch, idx⟩ isIndexed
    have isAt : (logs.filterMap ScannerLog.batchLog?)[idx]? = some batch :=
      List.mem_zipIdx_iff_getElem?.mp isIndexed
    have member :=
      (same.filterMap _).mem_iff.mp (List.mem_of_getElem? isAt)
    simp only [Function.comp_apply]
    rw [pairSegmentRanges_eq onChain.distinct.logsBetween same isAt,
      pairedRange_logsBetween onChain member]
  rw [read]
  exact (same.filterMap _).map _

/-- The logs of two neighbouring ranges are those of both together. -/
theorem logsBetween_append
    {first second : Nat}
    (positiveFirst : 0 < first)
    (positiveSecond : 0 < second) :
    (logsBetween chain fromBlock (fromBlock + first - 1) ++
        logsBetween chain (fromBlock + first)
          (fromBlock + first + second - 1)).Perm
      (logsBetween chain fromBlock
        (fromBlock + (first + second) - 1)) := by
  have cut :=
    List.filter_append_perm
      (fun log : ScannerLog => log.blockNumber < fromBlock + first)
      (logsBetween chain fromBlock (fromBlock + (first + second) - 1))
  have left :
      (logsBetween chain fromBlock
          (fromBlock + (first + second) - 1)).filter
            (fun log => log.blockNumber < fromBlock + first) =
        logsBetween chain fromBlock (fromBlock + first - 1) := by
    rw [logsBetween, List.filter_filter]
    apply List.filter_congr
    intro log _
    simp only [← Bool.decide_and, decide_eq_decide]
    omega
  have right :
      (logsBetween chain fromBlock
          (fromBlock + (first + second) - 1)).filter
            (fun log => !decide (log.blockNumber < fromBlock + first)) =
        logsBetween chain (fromBlock + first)
          (fromBlock + first + second - 1) := by
    rw [logsBetween, List.filter_filter]
    apply List.filter_congr
    intro log _
    simp only [← decide_not, ← Bool.decide_and, decide_eq_decide]
    omega
  rw [left, right] at cut
  exact cut

/-- The batches of two neighbouring ranges are those of both together. -/
theorem registeredBetween_append
    {first second : Nat}
    (positiveFirst : 0 < first)
    (positiveSecond : 0 < second) :
    (registeredBetween chain fromBlock (fromBlock + first - 1) ++
        registeredBetween chain (fromBlock + first)
          (fromBlock + first + second - 1)).Perm
      (registeredBetween chain fromBlock
        (fromBlock + (first + second) - 1)) := by
  simp only [registeredBetween, ← List.map_append, ← List.filterMap_append]
  exact ((logsBetween_append positiveFirst positiveSecond).filterMap _).map _

/-- However a range is paged and halved, its batches come back. -/
theorem scanLogs_perm
    (onChain : ChainLogs chain)
    (truthful : AnswersTruthfully chain getLogs)
    (ordered : fromBlock ≤ toBlock)
    (returned :
      scanLogs getLogs chunkSize fromBlock toBlock = .ok events) :
    events.Perm (registeredBetween chain fromBlock toBlock) := by
  have found :=
    scanLogs_rule
      (fun fromBlock span events =>
        events.Perm
          (registeredBetween chain fromBlock (fromBlock + span - 1)))
      (fun {fromBlock span logs} _ answered => by
        rcases truthful fromBlock (fromBlock + span - 1) with
          rejected | ⟨logs', isAnswer, same⟩
        · rw [rejected] at answered
          cases answered
        · rw [isAnswer] at answered
          cases answered
          exact eventsOfLogs_perm onChain same)
      (fun positiveFirst positiveSecond isLeft isRight =>
        (isLeft.append isRight).trans
          (registeredBetween_append positiveFirst positiveSecond))
      (fun same isSorted => isSorted.trans same) ordered returned
  have isEnd : fromBlock + (toBlock - fromBlock + 1) - 1 = toBlock := by
    omega
  rw [isEnd] at found
  exact found

theorem comesBefore_iff
    (first second : BlobBatchRegisteredEvent) :
    first.comesBefore second = true ↔
      first.blockNumber < second.blockNumber ∨
        first.blockNumber = second.blockNumber ∧
          first.logIndex ≤ second.logIndex := by
  unfold BlobBatchRegisteredEvent.comesBefore
  by_cases same : first.blockNumber = second.blockNumber
  · simp [same]
  · simp only [ne_eq, same, not_false_eq_true, if_true, false_and,
      or_false, decide_eq_true_eq]
    omega

/-- A scan that returns orders its events. -/
theorem scanLogs_sorted
    (returned :
      scanLogs getLogs chunkSize fromBlock toBlock = .ok events) :
    events.Pairwise fun first second => first.comesBefore second = true := by
  have sorted :
      ∀ answer : Except ScanError (List BlobBatchRegisteredEvent),
        answer.map (fun found =>
          found.insertionSort fun first second =>
            first.comesBefore second) = .ok events →
        events.Pairwise fun first second =>
          first.comesBefore second = true := by
    intro answer isSorted
    have : Std.Total fun first second : BlobBatchRegisteredEvent =>
        first.comesBefore second = true := by
      constructor
      intro first second
      rw [comesBefore_iff, comesBefore_iff]
      omega
    have : IsTrans BlobBatchRegisteredEvent fun first second =>
        first.comesBefore second = true := by
      constructor
      intro first second third
      rw [comesBefore_iff, comesBefore_iff, comesBefore_iff]
      omega
    cases answer with
    | error error =>
        cases isSorted
    | ok found =>
        cases isSorted
        exact List.pairwise_insertionSort _ found
  unfold scanLogs at returned
  dsimp only at returned
  split at returned
  · cases returned
  · split at returned
    · cases returned
      exact List.Pairwise.nil
    · split at returned
      · exact sorted _ returned
      · split at returned
        · exact sorted _ returned
        · split at returned
          · exact sorted _ returned
          · cases returned

/-- The events of a range stand at different positions. -/
theorem registeredBetween_apart
    (onChain : ChainLogs chain) :
    (registeredBetween chain fromBlock toBlock).Pairwise
      fun first second =>
        first.blockNumber = second.blockNumber →
          first.logIndex ≠ second.logIndex := by
  rw [registeredBetween, List.pairwise_map]
  refine List.Pairwise.filterMap ScannerLog.batchLog? ?_
    (onChain.positions.filter _)
  intro first second apart batch isBatch batch' isBatch'
  have sameBlock := (ScannerLog.batchLog?_facts isBatch).1
  have sameBlock' := (ScannerLog.batchLog?_facts isBatch').1
  have sameIndex := (batchLog?_position isBatch).2
  have sameIndex' := (batchLog?_position isBatch').2
  simp only [ScannerBatchLog.toEvent, sameBlock, sameBlock', sameIndex,
    sameIndex']
  exact apart

theorem scanLogs_strictly
    (onChain : ChainLogs chain)
    (same : events.Perm (registeredBetween chain fromBlock toBlock))
    (sorted :
      events.Pairwise fun first second =>
        first.comesBefore second = true) :
    events.Pairwise BlobBatchRegisteredEvent.StrictlyBefore := by
  have apart :=
    (registeredBetween_apart onChain).perm same.symm
      (fun areApart sameBlock sameIndex =>
        areApart sameBlock.symm sameIndex.symm)
  refine apart.imp₂ ?_ sorted
  intro first second areApart ordered
  rcases (comesBefore_iff first second).mp ordered with
    earlier | ⟨sameBlock, notLater⟩
  · exact .inl earlier
  · exact .inr ⟨sameBlock,
      Nat.lt_of_le_of_ne notLater (areApart sameBlock)⟩

/-- A strict order leaves one arrangement of the events. -/
theorem eq_of_strictly
    {others : List BlobBatchRegisteredEvent}
    (strictly : events.Pairwise BlobBatchRegisteredEvent.StrictlyBefore)
    (othersStrictly :
      others.Pairwise BlobBatchRegisteredEvent.StrictlyBefore)
    (same : events.Perm others) :
    events = others := by
  refine same.eq_of_pairwise ?_ strictly othersStrictly
  intro first second _ _ forward backward
  unfold BlobBatchRegisteredEvent.StrictlyBefore at forward backward
  omega

/-- What a scan that returns gives back. -/
theorem scanLogs_returned
    (onChain : ChainLogs chain)
    (truthful : AnswersTruthfully chain getLogs)
    (returned :
      scanLogs getLogs chunkSize fromBlock toBlock = .ok events) :
    events.Pairwise BlobBatchRegisteredEvent.StrictlyBefore ∧
      events.Perm (registeredBetween chain fromBlock toBlock) := by
  have sorted := scanLogs_sorted returned
  rcases Nat.lt_or_ge toBlock fromBlock with inverted | ordered
  · have nothing : registeredBetween chain fromBlock toBlock = [] := by
      have noLogs : logsBetween chain fromBlock toBlock = [] := by
        rw [logsBetween, List.filter_eq_nil_iff]
        intro log _
        simp only [decide_eq_true_eq]
        omega
      rw [registeredBetween, noLogs]
      rfl
    unfold scanLogs at returned
    dsimp only at returned
    split at returned
    · cases returned
    · cases returned
      rw [nothing]
      exact ⟨List.Pairwise.nil, .refl _⟩
  · have same := scanLogs_perm onChain truthful ordered returned
    exact ⟨scanLogs_strictly onChain same sorted, same⟩

/--
A scan throws, or it returns every registered batch of its range once, with its
paired range and in order; the list is the same for every chunk size and
whichever ranges were rejected.
-/
theorem scanLogs_exactly
    (onChain : ChainLogs chain)
    (truthful : AnswersTruthfully chain getLogs)
    (chunkSize : Option Nat)
    (fromBlock toBlock : Nat) :
    (∃ error,
        scanLogs getLogs chunkSize fromBlock toBlock = .error error) ∨
      ∃ events,
        scanLogs getLogs chunkSize fromBlock toBlock = .ok events ∧
        events.Pairwise BlobBatchRegisteredEvent.StrictlyBefore ∧
        events.Perm (registeredBetween chain fromBlock toBlock) ∧
        ∀ getLogs' chunkSize' events',
          AnswersTruthfully chain getLogs' →
          scanLogs getLogs' chunkSize' fromBlock toBlock = .ok events' →
          events' = events := by
  cases returned : scanLogs getLogs chunkSize fromBlock toBlock with
  | error error =>
      exact .inl ⟨error, rfl⟩
  | ok events =>
      obtain ⟨strictly, same⟩ :=
        scanLogs_returned onChain truthful returned
      refine .inr ⟨events, rfl, strictly, same, ?_⟩
      intro getLogs' chunkSize' events' truthful' returned'
      obtain ⟨strictly', same'⟩ :=
        scanLogs_returned onChain truthful' returned'
      exact eq_of_strictly strictly' strictly (same'.trans same.symm)

end Chain

/-- A provider that rejects ranges of more than 70 blocks. -/
def cappedProvider (chain : List ScannerLog) : LogScanClient :=
  fun fromBlock toBlock =>
    if 70 < toBlock + 1 - fromBlock then .error .rangeTooLarge
    else .ok (logsBetween chain fromBlock toBlock)

theorem cappedProvider_truthful (chain : List ScannerLog) :
    AnswersTruthfully chain (cappedProvider chain) := by
  intro fromBlock toBlock
  unfold cappedProvider
  split
  · exact .inl rfl
  · exact .inr ⟨_, rfl, .refl _⟩

theorem rogueDeclarations_chainLogs :
    ChainLogs rogueDeclarations where
  positions := by
    simp [rogueDeclarations]
  oneBlock := by
    decide

theorem scanLogs_exactly_rogue :
    (∃ error,
        scanLogs (cappedProvider rogueDeclarations) (some 100) 0 199 =
          .error error) ∨
      ∃ events,
        scanLogs (cappedProvider rogueDeclarations) (some 100) 0 199 =
          .ok events ∧
        events.Pairwise BlobBatchRegisteredEvent.StrictlyBefore ∧
        events.Perm (registeredBetween rogueDeclarations 0 199) ∧
        ∀ getLogs' chunkSize' events',
          AnswersTruthfully rogueDeclarations getLogs' →
          scanLogs getLogs' chunkSize' 0 199 = .ok events' →
          events' = events :=
  scanLogs_exactly rogueDeclarations_chainLogs
    (cappedProvider_truthful rogueDeclarations) (some 100) 0 199

end Bam
