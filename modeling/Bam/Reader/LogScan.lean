import Bam.Contracts.Core
import Bam.Reader.ProcessBatch
import Mathlib.Data.List.Sort

namespace Bam

/-!
# The log scanner

`scanLogs` asks a provider for the logs of the core contract, pairs each
registered batch with the segment declared for it, and pages and halves ranges
that are too large.
-/

/-- A log with its position on chain. -/
structure ScannerLog where
  blockNumber : Nat
  transactionIndex : Nat
  logIndex : Nat
  transactionHash : Bytes32
  log : CoreLog
  deriving Repr, DecidableEq

/-- A `BlobBatchRegistered` log. -/
structure ScannerBatchLog where
  blockNumber : Nat
  transactionIndex : Nat
  logIndex : Nat
  transactionHash : Bytes32
  args : BlobBatchRegisteredArgs
  deriving Repr, DecidableEq

/-- A `BlobSegmentDeclared` log. -/
structure ScannerSegmentLog where
  logIndex : Nat
  transactionHash : Bytes32
  args : BlobSegmentDeclaredArgs
  deriving Repr, DecidableEq

/-- The batch log of a log, if it is one. -/
def ScannerLog.batchLog? (log : ScannerLog) : Option ScannerBatchLog :=
  match log.log with
  | .BlobBatchRegistered args =>
      some {
        blockNumber := log.blockNumber
        transactionIndex := log.transactionIndex
        logIndex := log.logIndex
        transactionHash := log.transactionHash
        args := args }
  | .BlobSegmentDeclared _ => none

/-- The segment log of a log, if it is one. -/
def ScannerLog.segmentLog? (log : ScannerLog) : Option ScannerSegmentLog :=
  match log.log with
  | .BlobBatchRegistered _ => none
  | .BlobSegmentDeclared args =>
      some {
        logIndex := log.logIndex
        transactionHash := log.transactionHash
        args := args }

/-- A log of one transaction, as the pairing walks it. -/
inductive TxItem where
  | bbr (idx : Nat) (log : ScannerBatchLog)
  | bsd (log : ScannerSegmentLog)
  deriving Repr, DecidableEq

def TxItem.logIndex : TxItem → Nat
  | .bbr _ log => log.logIndex
  | .bsd log => log.logIndex

/-- The logs of one transaction in log order. -/
def txItems
    (batchLogs : List ScannerBatchLog)
    (segmentLogs : List ScannerSegmentLog)
    (txHash : Bytes32) : List TxItem :=
  let batches :=
    (batchLogs.zipIdx.filter fun item =>
      item.1.transactionHash = txHash).map fun item => TxItem.bbr item.2 item.1
  let segments :=
    (segmentLogs.filter fun log => log.transactionHash = txHash).map
      TxItem.bsd
  (batches ++ segments).insertionSort fun first second =>
    first.logIndex ≤ second.logIndex

/-- A segment declared for the batch. -/
def ScannerSegmentLog.matches
    (segment : ScannerSegmentLog)
    (batch : ScannerBatchLog) : Bool :=
  segment.args.versionedHash = batch.args.versionedHash &&
    segment.args.contentTag = batch.args.contentTag

/-- The walk over one transaction.  `pending` holds the unclaimed segments, the
most recent first. -/
def pairItems :
    List TxItem → List ScannerSegmentLog → List (Nat × Nat × Nat)
  | [], _ => []
  | .bsd log :: rest, pending => pairItems rest (log :: pending)
  | .bbr idx log :: rest, pending =>
      match pending.find? fun segment => segment.matches log with
      | none => pairItems rest pending
      | some segment =>
          (idx, segment.args.startFE.toNat, segment.args.endFE.toNat) ::
            pairItems rest
              (pending.eraseP fun segment => segment.matches log)

/-- `pairSegmentRanges`: the range of the batch log at an index. -/
def pairSegmentRanges
    (batchLogs : List ScannerBatchLog)
    (segmentLogs : List ScannerSegmentLog)
    (idx : Nat)
    (log : ScannerBatchLog) : Option (Nat × Nat) :=
  (pairItems (txItems batchLogs segmentLogs log.transactionHash) []).lookup
    idx

/-- The event of a batch log with its range. -/
def ScannerBatchLog.toEvent
    (log : ScannerBatchLog)
    (range : Option (Nat × Nat)) : BlobBatchRegisteredEvent where
  blockNumber := log.blockNumber
  txIndex := log.transactionIndex
  logIndex := log.logIndex
  txHash := log.transactionHash
  versionedHash := log.args.versionedHash
  submitter := log.args.submitter
  contentTag := log.args.contentTag
  decoder := log.args.decoder
  signatureRegistry := log.args.signatureRegistry
  startFE := some ((range.map Prod.fst).getD 0)
  endFE := some ((range.map Prod.snd).getD FIELD_ELEMENTS_PER_BLOB)

/-- The events in the logs of one answer. -/
def eventsOfLogs (logs : List ScannerLog) : List BlobBatchRegisteredEvent :=
  let batchLogs := logs.filterMap ScannerLog.batchLog?
  let segmentLogs := logs.filterMap ScannerLog.segmentLog?
  batchLogs.zipIdx.map fun (log, idx) =>
    log.toEvent (pairSegmentRanges batchLogs segmentLogs idx log)

/-- A range the Reader accepts. -/
def ValidRange (range : Nat × Nat) : Prop :=
  validateSegmentRange range.1 range.2 = none

theorem validRange_iff
    (range : Nat × Nat) :
    ValidRange range ↔
      range.1 < range.2 ∧ range.2 ≤ FIELD_ELEMENTS_PER_BLOB := by
  unfold ValidRange validateSegmentRange
  split
  · rename_i exceeds
    exact ⟨fun refused => (by cases refused),
      fun valid => absurd valid.2 (Nat.not_le.mpr exceeds)⟩
  · rename_i within
    split
    · rename_i inverted
      exact ⟨fun refused => (by cases refused),
        fun valid => absurd valid.1 (Nat.not_lt.mpr inverted)⟩
    · rename_i ordered
      exact ⟨fun _ => ⟨Nat.lt_of_not_le ordered, Nat.le_of_not_lt within⟩,
        fun _ => rfl⟩

def ScannerSegmentLog.range (segment : ScannerSegmentLog) : Nat × Nat :=
  (segment.args.startFE.toNat, segment.args.endFE.toNat)

theorem declareBlobSegment_range
    {blobhash : BitVec 256 → Bytes32}
    {sender : Address}
    {blobIndex : BitVec 256}
    {startFE endFE : BitVec 16}
    {contentTag : Bytes32}
    {args : BlobSegmentDeclaredArgs}
    (declared :
      declareBlobSegment blobhash sender blobIndex startFE endFE
        contentTag = .ok args) :
    ValidRange (startFE.toNat, endFE.toNat) := by
  unfold declareBlobSegment at declared
  split at declared
  · cases declared
  · rename_i within
    obtain ⟨ordered, bounded⟩ := not_or.mp within
    exact (validRange_iff _).mpr
      ⟨Nat.lt_of_not_le ordered, Nat.le_of_not_lt bounded⟩

/-- The loop of the contract emits segments of valid range only. -/
theorem registerCalls_range
    {blobhash : BitVec 256 → Bytes32}
    {sender : Address}
    {calls : List BlobBatchCall}
    {emitted : List CoreLog}
    (registered : registerCalls blobhash sender calls = .ok emitted)
    {call : BlobBatchCall}
    (member : call ∈ calls) :
    ValidRange (call.startFE.toNat, call.endFE.toNat) := by
  induction calls generalizing emitted with
  | nil =>
      cases member
  | cons first rest inductionHypothesis =>
      simp only [registerCalls, registerBlobBatch] at registered
      cases declared : declareBlobSegment blobhash sender first.blobIndex
          first.startFE first.endFE first.contentTag with
      | error revert =>
          simp [declared] at registered
      | ok segment =>
          cases later : registerCalls blobhash sender rest with
          | error revert =>
              simp [declared, later] at registered
          | ok others =>
              rcases List.mem_cons.mp member with rfl | inRest
              · exact declareBlobSegment_range declared
              · exact inductionHypothesis later inRest

/-- No event of a transaction is rejected for its range, whatever its calls
repeat. -/
theorem registered_range
    {blobhash : BitVec 256 → Bytes32}
    {sender : Address}
    {calls : List BlobBatchCall}
    {emitted : List CoreLog}
    (registered : registerBlobBatches blobhash sender calls = .ok emitted)
    {call : BlobBatchCall}
    (member : call ∈ calls) :
    ValidRange (call.startFE.toNat, call.endFE.toNat) := by
  rw [registerBlobBatches] at registered
  split at registered
  · cases registered
  · exact registerCalls_range registered member

/-- What a provider answers to `eth_getLogs`. -/
inductive GetLogsError where
  /-- The range or its result is too large. -/
  | rangeTooLarge
  | other
  deriving Repr, DecidableEq

/-- What `scanLogs` throws. -/
inductive ScanError where
  | chunkSize (chunkSize : Nat)
  | getLogs (error : GetLogsError)
  deriving Repr, DecidableEq

/-- A provider: the logs of the contract in a range of blocks, filtered by the
content tags it is asked for. -/
abbrev LogScanClient :=
  Nat → Nat → Except GetLogsError (List ScannerLog)

def MIN_CHUNK_BLOCKS : Nat := 64

/-- `fetchWithHalving` over `span` blocks from `fromBlock` on. -/
def fetchWithHalving
    (getLogs : LogScanClient)
    (fromBlock span : Nat) :
    Except ScanError (List BlobBatchRegisteredEvent) :=
  match getLogs fromBlock (fromBlock + span - 1) with
  | .ok logs => .ok (eventsOfLogs logs)
  | .error .other => .error (.getLogs .other)
  | .error .rangeTooLarge =>
      if span ≤ MIN_CHUNK_BLOCKS then
        .error (.getLogs .rangeTooLarge)
      else
        match fetchWithHalving getLogs fromBlock (span / 2) with
        | .error error => .error error
        | .ok left =>
            match fetchWithHalving getLogs (fromBlock + span / 2)
                (span - span / 2) with
            | .error error => .error error
            | .ok right => .ok (left ++ right)
termination_by span
decreasing_by
  all_goals
    have large : MIN_CHUNK_BLOCKS < span := by omega
    simp only [MIN_CHUNK_BLOCKS] at large
    omega

/-- The paging loop over `span` blocks from `fromBlock` on. -/
def fetchChunks
    (getLogs : LogScanClient)
    (chunkSize : Nat)
    (positive : 0 < chunkSize)
    (fromBlock span : Nat) :
    Except ScanError (List BlobBatchRegisteredEvent) :=
  if span = 0 then .ok []
  else
    match fetchWithHalving getLogs fromBlock (min chunkSize span) with
    | .error error => .error error
    | .ok chunk =>
        match fetchChunks getLogs chunkSize positive
            (fromBlock + chunkSize) (span - chunkSize) with
        | .error error => .error error
        | .ok later => .ok (chunk ++ later)
termination_by span

/-- The canonical order of events. -/
def BlobBatchRegisteredEvent.comesBefore
    (first second : BlobBatchRegisteredEvent) : Bool :=
  if first.blockNumber ≠ second.blockNumber then
    first.blockNumber ≤ second.blockNumber
  else first.logIndex ≤ second.logIndex

/-- `scanLogs` over `[fromBlock, toBlock]`. -/
def scanLogs
    (getLogs : LogScanClient)
    (chunkSize : Option Nat)
    (fromBlock toBlock : Nat) :
    Except ScanError (List BlobBatchRegisteredEvent) :=
  let sorted (events : List BlobBatchRegisteredEvent) :=
    events.insertionSort fun first second => first.comesBefore second
  if chunkSize = some 0 then .error (.chunkSize 0)
  else if toBlock < fromBlock then .ok []
  else
    let rangeLen := toBlock - fromBlock + 1
    match chunkSize with
    | none =>
        (fetchWithHalving getLogs fromBlock rangeLen).map sorted
    | some chunk =>
        if rangeLen ≤ chunk then
          (fetchWithHalving getLogs fromBlock rangeLen).map sorted
        else if positive : 0 < chunk then
          (fetchChunks getLogs chunk positive fromBlock rangeLen).map
            sorted
        else .error (.chunkSize chunk)

def CoreLog.contentTag : CoreLog → Bytes32
  | .BlobSegmentDeclared args => args.contentTag
  | .BlobBatchRegistered args => args.contentTag

/-- The allowlist of a scan selects a content tag. -/
def selectsTag
    (contentTags : Option (List Bytes32))
    (contentTag : Bytes32) : Bool :=
  match contentTags with
  | none => true
  | some tags => tags.isEmpty || tags.contains contentTag

/-- A provider that answers with the logs of the chain, up to a limit. -/
def Truthful
    (onChain : ScannerLog → Prop)
    (contentTags : Option (List Bytes32))
    (limit : Int)
    (getLogs : LogScanClient) : Prop :=
  ∀ (fromBlock toBlock : Nat) (logs : List ScannerLog),
    (toBlock : Int) ≤ limit →
    getLogs fromBlock toBlock = .ok logs →
    ∀ log, log ∈ logs ↔
      onChain log ∧ fromBlock ≤ log.blockNumber ∧
        log.blockNumber ≤ toBlock ∧
        selectsTag contentTags log.log.contentTag = true

/-- The event is the batch log, with some segment range. -/
def ScannerBatchLog.ReadAs
    (log : ScannerBatchLog)
    (event : BlobBatchRegisteredEvent) : Prop :=
  ∃ range, event = log.toEvent range

/-- A batch registered on the chain under a selected tag. -/
def Registered
    (onChain : ScannerLog → Prop)
    (contentTags : Option (List Bytes32))
    (batch : ScannerBatchLog) : Prop :=
  ∃ log, onChain log ∧ log.batchLog? = some batch ∧
    selectsTag contentTags batch.args.contentTag = true

/-- The events are those of a range of blocks. -/
structure Scanned
    (onChain : ScannerLog → Prop)
    (contentTags : Option (List Bytes32))
    (fromBlock toBlock : Nat)
    (events : List BlobBatchRegisteredEvent) : Prop where
  within :
    ∀ event ∈ events,
      fromBlock ≤ event.blockNumber ∧ event.blockNumber ≤ toBlock
  complete :
    ∀ batch,
      Registered onChain contentTags batch →
      fromBlock ≤ batch.blockNumber →
      batch.blockNumber ≤ toBlock →
      ∃ event ∈ events, batch.ReadAs event

section Scan

variable {onChain : ScannerLog → Prop}
variable {contentTags : Option (List Bytes32)}
variable {limit : Int}
variable {getLogs : LogScanClient}

theorem ScannerLog.batchLog?_facts
    {log : ScannerLog}
    {batch : ScannerBatchLog}
    (isBatch : log.batchLog? = some batch) :
    batch.blockNumber = log.blockNumber ∧
      batch.args.contentTag = log.log.contentTag := by
  unfold ScannerLog.batchLog? at isBatch
  split at isBatch
  · rename_i args isArgs
    cases isBatch
    exact ⟨rfl, by rw [isArgs]; rfl⟩
  · cases isBatch

/-- Every batch log of an answer is read as an event. -/
theorem exists_readAs
    {logs : List ScannerLog}
    {batch : ScannerBatchLog}
    (member : batch ∈ logs.filterMap ScannerLog.batchLog?) :
    ∃ event ∈ eventsOfLogs logs, batch.ReadAs event := by
  obtain ⟨idx, isAt⟩ := List.mem_iff_getElem?.mp member
  refine ⟨_, List.mem_map_of_mem
    (List.mem_zipIdx_iff_getElem?.mpr
      (show (logs.filterMap ScannerLog.batchLog?)[(batch, idx).2]? =
        some (batch, idx).1 from isAt)), ?_⟩
  exact ⟨_, rfl⟩

/-- Every event of an answer is read off one of its batch logs. -/
theorem readAs_of_mem_eventsOfLogs
    {logs : List ScannerLog}
    {event : BlobBatchRegisteredEvent}
    (member : event ∈ eventsOfLogs logs) :
    ∃ batch ∈ logs.filterMap ScannerLog.batchLog?,
      batch.ReadAs event := by
  obtain ⟨⟨batch, idx⟩, isIndexed, isEvent⟩ := List.mem_map.mp member
  exact ⟨batch, List.mem_of_getElem?
    (List.mem_zipIdx_iff_getElem?.mp isIndexed), _, isEvent.symm⟩

theorem ScannerBatchLog.ReadAs.blockNumber
    {batch : ScannerBatchLog}
    {event : BlobBatchRegisteredEvent}
    (isRead : batch.ReadAs event) :
    event.blockNumber = batch.blockNumber := by
  obtain ⟨range, rfl⟩ := isRead
  rfl

/-- One answer of a truthful provider. -/
theorem scanned_eventsOfLogs
    (truthful : Truthful onChain contentTags limit getLogs)
    {fromBlock toBlock : Nat}
    (below : (toBlock : Int) ≤ limit)
    {logs : List ScannerLog}
    (answered : getLogs fromBlock toBlock = .ok logs) :
    Scanned onChain contentTags fromBlock toBlock (eventsOfLogs logs) := by
  have exactly := truthful fromBlock toBlock logs below answered
  constructor
  · intro event member
    obtain ⟨batch, isBatch, isRead⟩ := readAs_of_mem_eventsOfLogs member
    obtain ⟨log, isLog, ofLog⟩ := List.mem_filterMap.mp isBatch
    obtain ⟨-, lower, upper, -⟩ := (exactly log).mp isLog
    rw [isRead.blockNumber, (ScannerLog.batchLog?_facts ofLog).1]
    exact ⟨lower, upper⟩
  · rintro batch ⟨log, isOnChain, ofLog, selected⟩ lower upper
    obtain ⟨sameBlock, sameTag⟩ := ScannerLog.batchLog?_facts ofLog
    rw [sameBlock] at lower upper
    rw [sameTag] at selected
    exact exists_readAs (List.mem_filterMap.mpr
      ⟨log, (exactly log).mpr ⟨isOnChain, lower, upper, selected⟩, ofLog⟩)

/-- Two scans of neighbouring ranges are a scan of both. -/
theorem Scanned.append
    {fromBlock middle toBlock : Nat}
    {left right : List BlobBatchRegisteredEvent}
    (isLeft : Scanned onChain contentTags fromBlock middle left)
    (isRight : Scanned onChain contentTags (middle + 1) toBlock right)
    (ordered : fromBlock ≤ middle + 1)
    (bounded : middle ≤ toBlock) :
    Scanned onChain contentTags fromBlock toBlock (left ++ right) := by
  constructor
  · intro event member
    rcases List.mem_append.mp member with inLeft | inRight
    · obtain ⟨lower, upper⟩ := isLeft.within event inLeft
      exact ⟨lower, upper.trans bounded⟩
    · obtain ⟨lower, upper⟩ := isRight.within event inRight
      exact ⟨ordered.trans lower, upper⟩
  · intro batch registered lower upper
    by_cases first : batch.blockNumber ≤ middle
    · obtain ⟨event, member, isRead⟩ :=
        isLeft.complete batch registered lower first
      exact ⟨event, List.mem_append_left right member, isRead⟩
    · obtain ⟨event, member, isRead⟩ :=
        isRight.complete batch registered (Nat.lt_of_not_le first) upper
      exact ⟨event, List.mem_append_right left member, isRead⟩

/-- The order of the events does not matter. -/
theorem Scanned.of_perm
    {fromBlock toBlock : Nat}
    {events sorted : List BlobBatchRegisteredEvent}
    (scanned : Scanned onChain contentTags fromBlock toBlock events)
    (same : sorted.Perm events) :
    Scanned onChain contentTags fromBlock toBlock sorted := by
  constructor
  · intro event member
    exact scanned.within event (same.mem_iff.mp member)
  · intro batch registered lower upper
    obtain ⟨event, member, isRead⟩ :=
      scanned.complete batch registered lower upper
    exact ⟨event, same.mem_iff.mpr member, isRead⟩

section Rule

variable (holds : Nat → Nat → List BlobBatchRegisteredEvent → Prop)
variable {chunkSize : Option Nat}
variable {fromBlock toBlock span : Nat}
variable {events : List BlobBatchRegisteredEvent}

/-- The rule of halving: what holds of one answer, and of two neighbouring
parts together, holds of what comes back. -/
theorem fetchWithHalving_rule
    (answered :
      ∀ {fromBlock span logs},
        0 < span →
        getLogs fromBlock (fromBlock + span - 1) = .ok logs →
        holds fromBlock span (eventsOfLogs logs))
    (append :
      ∀ {fromBlock first second left right},
        0 < first → 0 < second →
        holds fromBlock first left →
        holds (fromBlock + first) second right →
        holds fromBlock (first + second) (left ++ right))
    (positive : 0 < span)
    (fetched : fetchWithHalving getLogs fromBlock span = .ok events) :
    holds fromBlock span events := by
  induction span using Nat.strongRecOn generalizing fromBlock events with
  | ind span inductionHypothesis =>
      unfold fetchWithHalving at fetched
      split at fetched
      · rename_i logs isAnswer
        cases fetched
        exact answered positive isAnswer
      · cases fetched
      · split at fetched
        · cases fetched
        · rename_i large
          have isLarge : 64 < span := Nat.lt_of_not_le large
          split at fetched
          · cases fetched
          · rename_i left isLeft
            split at fetched
            · cases fetched
            · rename_i right isRight
              cases fetched
              have joined :=
                append (by omega) (by omega)
                  (inductionHypothesis (span / 2) (by omega) (by omega)
                    isLeft)
                  (inductionHypothesis (span - span / 2) (by omega)
                    (by omega) isRight)
              rw [Nat.add_sub_cancel' (Nat.div_le_self span 2)] at joined
              exact joined

/-- The rule of paging. -/
theorem fetchChunks_rule
    (answered :
      ∀ {fromBlock span logs},
        0 < span →
        getLogs fromBlock (fromBlock + span - 1) = .ok logs →
        holds fromBlock span (eventsOfLogs logs))
    (append :
      ∀ {fromBlock first second left right},
        0 < first → 0 < second →
        holds fromBlock first left →
        holds (fromBlock + first) second right →
        holds fromBlock (first + second) (left ++ right))
    {chunk : Nat}
    {isPositive : 0 < chunk}
    (positive : 0 < span)
    (fetched :
      fetchChunks getLogs chunk isPositive fromBlock span = .ok events) :
    holds fromBlock span events := by
  induction span using Nat.strongRecOn generalizing fromBlock events with
  | ind span inductionHypothesis =>
      unfold fetchChunks at fetched
      rw [if_neg (Nat.ne_of_gt positive)] at fetched
      split at fetched
      · cases fetched
      · rename_i page isPage
        split at fetched
        · cases fetched
        · rename_i later isLater
          cases fetched
          have first :=
            fetchWithHalving_rule holds answered append
              (by omega : 0 < min chunk span) isPage
          by_cases last : span ≤ chunk
          · unfold fetchChunks at isLater
            rw [if_pos (Nat.sub_eq_zero_of_le last)] at isLater
            cases isLater
            rw [Nat.min_eq_right last] at first
            rw [List.append_nil]
            exact first
          · have isShort : chunk ≤ span := by omega
            rw [Nat.min_eq_left isShort] at first
            have joined :=
              append isPositive (by omega) first
                (inductionHypothesis (span - chunk) (by omega) (by omega)
                  isLater)
            rw [Nat.add_sub_cancel' isShort] at joined
            exact joined

/-- The rule of a scan that returns, whatever the provider made it page and
halve. -/
theorem scanLogs_rule
    (answered :
      ∀ {fromBlock span logs},
        0 < span →
        getLogs fromBlock (fromBlock + span - 1) = .ok logs →
        holds fromBlock span (eventsOfLogs logs))
    (append :
      ∀ {fromBlock first second left right},
        0 < first → 0 < second →
        holds fromBlock first left →
        holds (fromBlock + first) second right →
        holds fromBlock (first + second) (left ++ right))
    (reorder :
      ∀ {fromBlock span found sorted},
        holds fromBlock span found →
        sorted.Perm found →
        holds fromBlock span sorted)
    (ordered : fromBlock ≤ toBlock)
    (returned :
      scanLogs getLogs chunkSize fromBlock toBlock = .ok events) :
    holds fromBlock (toBlock - fromBlock + 1) events := by
  have sorted :
      ∀ answer : Except ScanError (List BlobBatchRegisteredEvent),
        (∀ fetched, answer = .ok fetched →
          holds fromBlock (toBlock - fromBlock + 1) fetched) →
        answer.map (fun found =>
          found.insertionSort fun first second =>
            first.comesBefore second) = .ok events →
        holds fromBlock (toBlock - fromBlock + 1) events := by
    intro answer holdsOf isSorted
    cases answer with
    | error error =>
        cases isSorted
    | ok fetched =>
        cases isSorted
        exact reorder (holdsOf fetched rfl) (List.perm_insertionSort _ _)
  have whole :=
    sorted _ fun _ isFetched =>
      fetchWithHalving_rule holds answered append (Nat.succ_pos _) isFetched
  unfold scanLogs at returned
  simp only [if_neg (Nat.not_lt.mpr ordered)] at returned
  split at returned
  · cases returned
  · split at returned
    · exact whole returned
    · split at returned
      · exact whole returned
      · split at returned
        · exact sorted _ (fun _ isFetched =>
            fetchChunks_rule holds answered append (Nat.succ_pos _) isFetched)
            returned
        · cases returned

/-- A scan that returns has every event of its range. -/
theorem scanned_scanLogs
    (truthful : Truthful onChain contentTags limit getLogs)
    (ordered : fromBlock ≤ toBlock)
    (below : (toBlock : Int) ≤ limit)
    (returned :
      scanLogs getLogs chunkSize fromBlock toBlock = .ok events) :
    Scanned onChain contentTags fromBlock toBlock events := by
  have scanned :=
    scanLogs_rule
      (fun fromBlock span events =>
        ((fromBlock + span - 1 : Nat) : Int) ≤ limit →
          Scanned onChain contentTags fromBlock (fromBlock + span - 1)
            events)
      (fun _ isAnswer within =>
        scanned_eventsOfLogs truthful within isAnswer)
      (fun {fromBlock first second _ _} _ _ isLeft isRight within => by
        have isMiddle :
            fromBlock + first - 1 + 1 = fromBlock + first := by omega
        have isEnd :
            fromBlock + first + second - 1 =
              fromBlock + (first + second) - 1 := by omega
        have later := isRight (isEnd ▸ within)
        rw [isEnd, ← isMiddle] at later
        exact (isLeft (by omega)).append later (by omega) (by omega))
      (fun found same within => (found within).of_perm same) ordered
      returned
  have isEnd : fromBlock + (toBlock - fromBlock + 1) - 1 = toBlock := by
    omega
  rw [isEnd] at scanned
  exact scanned below

/-- Whatever a scan up to a block returns has every batch of its range. -/
def Scans
    (onChain : ScannerLog → Prop)
    (contentTags : Option (List Bytes32))
    (limit : Int)
    (getLogs : LogScanClient) : Prop :=
  ∀ (chunkSize : Option Nat) (fromBlock toBlock : Nat)
    (events : List BlobBatchRegisteredEvent),
    fromBlock ≤ toBlock →
    (toBlock : Int) ≤ limit →
    scanLogs getLogs chunkSize fromBlock toBlock = .ok events →
    Scanned onChain contentTags fromBlock toBlock events

theorem Truthful.scans
    (truthful : Truthful onChain contentTags limit getLogs) :
    Scans onChain contentTags limit getLogs :=
  fun _ _ _ _ ordered below returned =>
    scanned_scanLogs truthful ordered below returned

/-- A scan that has every batch of a chain has every batch of a part of
it. -/
theorem Scans.mono
    (scans : Scans onChain contentTags limit getLogs)
    {part : ScannerLog → Prop}
    (isPart : ∀ log, part log → onChain log) :
    Scans part contentTags limit getLogs := by
  intro chunkSize fromBlock toBlock events ordered below returned
  have scanned :=
    scans chunkSize fromBlock toBlock events ordered below returned
  constructor
  · exact scanned.within
  · rintro batch ⟨log, isOnChain, ofLog, selected⟩ lower upper
    exact scanned.complete batch
      ⟨log, isPart log isOnChain, ofLog, selected⟩ lower upper

/-- Every event of a scan that returns is read off a registered batch. -/
theorem registered_of_mem_scanLogs
    (truthful : Truthful onChain contentTags limit getLogs)
    (ordered : fromBlock ≤ toBlock)
    (below : (toBlock : Int) ≤ limit)
    (returned :
      scanLogs getLogs chunkSize fromBlock toBlock = .ok events)
    {event : BlobBatchRegisteredEvent}
    (member : event ∈ events) :
    ∃ batch, Registered onChain contentTags batch ∧
      batch.ReadAs event := by
  have sourced :=
    scanLogs_rule
      (fun fromBlock span events =>
        ((fromBlock + span - 1 : Nat) : Int) ≤ limit →
          ∀ event ∈ events, ∃ batch,
            Registered onChain contentTags batch ∧ batch.ReadAs event)
      (fun _ isAnswer within event isEvent => by
        obtain ⟨batch, isBatch, isRead⟩ :=
          readAs_of_mem_eventsOfLogs isEvent
        obtain ⟨log, isLog, ofLog⟩ := List.mem_filterMap.mp isBatch
        obtain ⟨isOnChain, -, -, selected⟩ :=
          (truthful _ _ _ within isAnswer log).mp isLog
        rw [← (ScannerLog.batchLog?_facts ofLog).2] at selected
        exact ⟨batch, ⟨log, isOnChain, ofLog, selected⟩, isRead⟩)
      (fun _ _ isLeft isRight within event isEvent =>
        (List.mem_append.mp isEvent).elim
          (isLeft (by omega) event) (isRight (by omega) event))
      (fun found same within event isEvent =>
        found within event (same.mem_iff.mp isEvent)) ordered returned
  exact sourced (by omega) event member

end Rule

end Scan

end Bam
