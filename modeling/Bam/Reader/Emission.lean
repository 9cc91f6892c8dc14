import Bam.Reader.ScanPartition

namespace Bam

/-!
# The events of a registering transaction

What a scan finds of a transaction that calls `registerBlobBatches`: for each
entry under a tag it asks for one event, with the range of that entry, whatever
other transactions logged and however the scan is cut.
-/

/-- The logs a provider is asked for: both events carry their tag as a topic. -/
def askedLogs
    (contentTags : Option (List Bytes32))
    (logs : List ScannerLog) : List ScannerLog :=
  logs.filter fun log => selectsTag contentTags log.log.contentTag

/-- The declaration an entry logs. -/
def BlobBatchCall.declared
    (blobhash : BitVec 256 → Bytes32)
    (sender : Address)
    (call : BlobBatchCall) : BlobSegmentDeclaredArgs where
  versionedHash := blobhash call.blobIndex
  declarer := sender
  startFE := call.startFE
  endFE := call.endFE
  contentTag := call.contentTag

/-- The registration an entry logs. -/
def BlobBatchCall.registered
    (blobhash : BitVec 256 → Bytes32)
    (sender : Address)
    (call : BlobBatchCall) : BlobBatchRegisteredArgs where
  versionedHash := blobhash call.blobIndex
  submitter := sender
  contentTag := call.contentTag
  decoder := call.decoder
  signatureRegistry := call.signatureRegistry

/-- The loop of the contract logs two entries for each call. -/
theorem registerCalls_eq
    {blobhash : BitVec 256 → Bytes32}
    {sender : Address}
    {calls : List BlobBatchCall}
    {emitted : List CoreLog}
    (registered : registerCalls blobhash sender calls = .ok emitted) :
    emitted = calls.flatMap fun call =>
      [.BlobSegmentDeclared (call.declared blobhash sender),
        .BlobBatchRegistered (call.registered blobhash sender)] := by
  induction calls generalizing emitted with
  | nil =>
      cases registered
      rfl
  | cons call rest inductionHypothesis =>
      simp only [registerCalls, registerBlobBatch] at registered
      cases declared : declareBlobSegment blobhash sender call.blobIndex
          call.startFE call.endFE call.contentTag with
      | error revert =>
          simp [declared] at registered
      | ok segment =>
          cases later : registerCalls blobhash sender rest with
          | error revert =>
              simp [declared, later] at registered
          | ok others =>
              simp only [declared, later, Except.ok.injEq] at registered
              have isSegment : segment = call.declared blobhash sender := by
                unfold declareBlobSegment at declared
                split at declared
                · cases declared
                · split at declared
                  · cases declared
                  · cases declared
                    rfl
              subst isSegment
              rw [← registered, inductionHypothesis later]
              rfl

/-- The logs of a list of calls, by position. -/
theorem getElem?_callLogs
    {declared registered : BlobBatchCall → CoreLog}
    {calls : List BlobBatchCall}
    {offset : Nat}
    {log : CoreLog} :
    (calls.flatMap fun call => [declared call, registered call])[offset]? =
        some log ↔
      ∃ position call,
        calls[position]? = some call ∧
          (offset = 2 * position ∧ log = declared call ∨
            offset = 2 * position + 1 ∧ log = registered call) := by
  induction calls generalizing offset with
  | nil =>
      simp
  | cons first rest inductionHypothesis =>
      rw [List.flatMap_cons]
      match offset with
      | 0 =>
          constructor
          · intro isFirst
            exact ⟨0, first, rfl, .inl ⟨rfl, (Option.some.inj isFirst).symm⟩⟩
          · rintro ⟨position, call, isAt, ⟨isStart, rfl⟩ | ⟨isLater, -⟩⟩
            · obtain rfl : position = 0 := by omega
              cases isAt
              rfl
            · omega
      | 1 =>
          constructor
          · intro isFirst
            exact ⟨0, first, rfl, .inr ⟨rfl, (Option.some.inj isFirst).symm⟩⟩
          · rintro ⟨position, call, isAt, ⟨isEven, -⟩ | ⟨isFirst, rfl⟩⟩
            · omega
            · obtain rfl : position = 0 := by omega
              cases isAt
              rfl
      | offset + 2 =>
          rw [show ([declared first, registered first] ++
              rest.flatMap fun call =>
                [declared call, registered call])[offset + 2]? =
              (rest.flatMap fun call =>
                [declared call, registered call])[offset]? from rfl,
            inductionHypothesis]
          constructor
          · rintro ⟨position, call, isAt, isLog⟩
            refine ⟨position + 1, call, isAt, ?_⟩
            rcases isLog with ⟨isOffset, isLog⟩ | ⟨isOffset, isLog⟩
            · exact .inl ⟨by omega, isLog⟩
            · exact .inr ⟨by omega, isLog⟩
          · rintro ⟨position, call, isAt, isLog⟩
            obtain ⟨before, rfl⟩ : ∃ before, position = before + 1 :=
              ⟨position - 1, by omega⟩
            refine ⟨before, call, isAt, ?_⟩
            rcases isLog with ⟨isOffset, isLog⟩ | ⟨isOffset, isLog⟩
            · exact .inl ⟨by omega, isLog⟩
            · exact .inr ⟨by omega, isLog⟩

/-- A transaction that calls `registerBlobBatches`, and its place on chain. -/
structure RegisteringTx where
  blobhash : BitVec 256 → Bytes32
  sender : Address
  calls : List BlobBatchCall
  blockNumber : Nat
  transactionIndex : Nat
  transactionHash : Bytes32
  /-- The position of its first log in the block. -/
  firstLog : Nat

namespace RegisteringTx

/-- A log of the transaction, by its offset. -/
def place
    (tx : RegisteringTx)
    (offset : Nat)
    (log : CoreLog) : ScannerLog where
  blockNumber := tx.blockNumber
  transactionIndex := tx.transactionIndex
  logIndex := tx.firstLog + offset
  transactionHash := tx.transactionHash
  log := log

/-- The transaction succeeds on the chain with these logs. -/
structure Logged
    (tx : RegisteringTx)
    (logs : List ScannerLog) : Prop where
  onChain : ChainLogs logs
  emitted :
    ∃ emitted,
      registerBlobBatches tx.blobhash tx.sender tx.calls = .ok emitted ∧
        logs.filter (fun log =>
            log.transactionHash = tx.transactionHash) =
          emitted.mapIdx tx.place

/-- The event of the entry at a position of the call. -/
def event
    (tx : RegisteringTx)
    (position : Nat)
    (call : BlobBatchCall) : BlobBatchRegisteredEvent where
  blockNumber := tx.blockNumber
  txIndex := tx.transactionIndex
  logIndex := tx.firstLog + (2 * position + 1)
  txHash := tx.transactionHash
  versionedHash := tx.blobhash call.blobIndex
  submitter := tx.sender
  contentTag := call.contentTag
  decoder := call.decoder
  signatureRegistry := call.signatureRegistry
  startFE := some call.startFE.toNat
  endFE := some call.endFE.toNat

/-- The batch log of the entry at a position of the call. -/
def batchLog
    (tx : RegisteringTx)
    (position : Nat)
    (call : BlobBatchCall) : ScannerBatchLog where
  blockNumber := tx.blockNumber
  transactionIndex := tx.transactionIndex
  logIndex := tx.firstLog + (2 * position + 1)
  transactionHash := tx.transactionHash
  args := call.registered tx.blobhash tx.sender

section Logs

variable {tx : RegisteringTx}
variable {logs : List ScannerLog}
variable {contentTags : Option (List Bytes32)}

/-- The contract has taken the range of each call. -/
theorem Logged.validRange
    (logged : tx.Logged logs)
    {call : BlobBatchCall}
    (member : call ∈ tx.calls) :
    ValidRange (call.startFE.toNat, call.endFE.toNat) := by
  obtain ⟨emitted, registered, -⟩ := logged.emitted
  exact registered_range registered member

/-- The transaction's logs among all of them. -/
theorem Logged.mem_iff
    (logged : tx.Logged logs)
    {log : ScannerLog} :
    log ∈ logs ∧ log.transactionHash = tx.transactionHash ↔
      ∃ position call,
        tx.calls[position]? = some call ∧
          (log = tx.place (2 * position)
              (.BlobSegmentDeclared
                (call.declared tx.blobhash tx.sender)) ∨
            log = tx.place (2 * position + 1)
              (.BlobBatchRegistered
                (call.registered tx.blobhash tx.sender))) := by
  obtain ⟨emitted, registered, placed⟩ := logged.emitted
  unfold registerBlobBatches at registered
  split at registered
  · cases registered
  have isEmitted := registerCalls_eq registered
  have isMember :
      log ∈ logs ∧ log.transactionHash = tx.transactionHash ↔
        ∃ (offset : Nat) (core : CoreLog),
          emitted[offset]? = some core ∧ log = tx.place offset core := by
    have filtered :
        log ∈ logs ∧ log.transactionHash = tx.transactionHash ↔
          log ∈ emitted.mapIdx tx.place := by
      rw [← placed, List.mem_filter, decide_eq_true_eq]
    rw [filtered, List.mem_mapIdx]
    constructor
    · rintro ⟨offset, inside, rfl⟩
      exact ⟨offset, _, List.getElem?_eq_getElem inside, rfl⟩
    · rintro ⟨offset, core, isAt, rfl⟩
      obtain ⟨inside, rfl⟩ := List.getElem?_eq_some_iff.mp isAt
      exact ⟨offset, inside, rfl⟩
  rw [isMember, isEmitted]
  constructor
  · rintro ⟨offset, core, isAt, rfl⟩
    obtain ⟨position, call, isCall, ⟨rfl, rfl⟩ | ⟨rfl, rfl⟩⟩ :=
      getElem?_callLogs.mp isAt
    · exact ⟨position, call, isCall, .inl rfl⟩
    · exact ⟨position, call, isCall, .inr rfl⟩
  · rintro ⟨position, call, isCall, rfl | rfl⟩
    · exact ⟨_, _, getElem?_callLogs.mpr
        ⟨position, call, isCall, .inl ⟨rfl, rfl⟩⟩, rfl⟩
    · exact ⟨_, _, getElem?_callLogs.mpr
        ⟨position, call, isCall, .inr ⟨rfl, rfl⟩⟩, rfl⟩

/-- The transaction's logs among those asked for. -/
theorem Logged.mem_asked_iff
    (logged : tx.Logged logs)
    {log : ScannerLog} :
    log ∈ askedLogs contentTags logs ∧
        log.transactionHash = tx.transactionHash ↔
      ∃ position call,
        tx.calls[position]? = some call ∧
          selectsTag contentTags call.contentTag = true ∧
          (log = tx.place (2 * position)
              (.BlobSegmentDeclared
                (call.declared tx.blobhash tx.sender)) ∨
            log = tx.place (2 * position + 1)
              (.BlobBatchRegistered
                (call.registered tx.blobhash tx.sender))) := by
  rw [askedLogs, List.mem_filter, and_right_comm,
    logged.mem_iff]
  constructor
  · rintro ⟨⟨position, call, isCall, rfl | rfl⟩, asked⟩
    · exact ⟨position, call, isCall, asked, .inl rfl⟩
    · exact ⟨position, call, isCall, asked, .inr rfl⟩
  · rintro ⟨position, call, isCall, asked, rfl | rfl⟩
    · exact ⟨⟨position, call, isCall, .inl rfl⟩, asked⟩
    · exact ⟨⟨position, call, isCall, .inr rfl⟩, asked⟩

/-- The batch logs of the transaction are those of its entries. -/
theorem Logged.mem_batchLogs_iff
    (logged : tx.Logged logs)
    {batch : ScannerBatchLog} :
    batch ∈ (askedLogs contentTags logs).filterMap
          ScannerLog.batchLog? ∧
        batch.transactionHash = tx.transactionHash ↔
      ∃ position call,
        tx.calls[position]? = some call ∧
          selectsTag contentTags call.contentTag = true ∧
          batch = tx.batchLog position call := by
  constructor
  · rintro ⟨member, ofTx⟩
    obtain ⟨log, isLog, isBatch⟩ := List.mem_filterMap.mp member
    rw [(batchLog?_position isBatch).1] at ofTx
    obtain ⟨position, call, isCall, asked, rfl | rfl⟩ :=
      logged.mem_asked_iff.mp ⟨isLog, ofTx⟩
    · cases isBatch
    · cases isBatch
      exact ⟨position, call, isCall, asked, rfl⟩
  · rintro ⟨position, call, isCall, asked, rfl⟩
    have isLog :=
      (logged.mem_asked_iff.mpr
        ⟨position, call, isCall, asked, .inr rfl⟩).1
    exact ⟨List.mem_filterMap.mpr ⟨_, isLog, rfl⟩, rfl⟩

/-- A registration follows its own declaration. -/
theorem Logged.own
    (logged : tx.Logged logs)
    {position : Nat}
    {call : BlobBatchCall}
    (isCall : tx.calls[position]? = some call)
    (asked : selectsTag contentTags call.contentTag = true) :
    IsOwnDeclaration (askedLogs contentTags logs)
      { logIndex := tx.firstLog + 2 * position
        transactionHash := tx.transactionHash
        args := call.declared tx.blobhash tx.sender }
      (tx.batchLog position call) where
  emitted := by
    have isLog :=
      (logged.mem_asked_iff.mpr
        ⟨position, call, isCall, asked, .inl rfl⟩).1
    exact List.mem_filterMap.mpr ⟨_, isLog, rfl⟩
  sameTransaction := rfl
  matching := by
    simp [ScannerSegmentLog.matches, batchLog, BlobBatchCall.declared,
      BlobBatchCall.registered]
  before := Nat.lt_succ_self _
  immediately := fun log _ _ after => after

/-- The event a batch log of the transaction becomes. -/
theorem Logged.toEvent
    (logged : tx.Logged logs)
    {position : Nat}
    {call : BlobBatchCall}
    (isCall : tx.calls[position]? = some call)
    (asked : selectsTag contentTags call.contentTag = true) :
    (tx.batchLog position call).toEvent
        (pairedRange (askedLogs contentTags logs)
          (tx.batchLog position call)) =
      tx.event position call := by
  have isOwn := logged.own isCall asked
  have member :=
    (logged.mem_batchLogs_iff.mpr ⟨position, call, isCall, asked, rfl⟩).1
  have distinct : DistinctPositions (askedLogs contentTags logs) :=
    List.Pairwise.filter _ logged.onChain.distinct
  obtain ⟨leading, trailing, items, fresh⟩ := isOwn.split distinct member
  rw [pairedRange, items,
    lookup_pairItems_of_own isOwn.matching fresh []]
  rfl

theorem Logged.asked
    (logged : tx.Logged logs) :
    ChainLogs (askedLogs contentTags logs) where
  positions := logged.onChain.positions.filter _
  oneBlock := fun first isFirst second isSecond =>
    logged.onChain.oneBlock first (List.mem_of_mem_filter isFirst) second
      (List.mem_of_mem_filter isSecond)

/-- The events a scan over the block of the transaction finds of it are those of
its entries. -/
theorem Logged.mem_scanLogs_iff
    (logged : tx.Logged logs)
    {getLogs : LogScanClient}
    (truthful : AnswersTruthfully (askedLogs contentTags logs) getLogs)
    {chunkSize : Option Nat}
    {fromBlock toBlock : Nat}
    (from_le : fromBlock ≤ tx.blockNumber)
    (le_to : tx.blockNumber ≤ toBlock)
    {events : List BlobBatchRegisteredEvent}
    (returned :
      scanLogs getLogs chunkSize fromBlock toBlock = .ok events)
    {event : BlobBatchRegisteredEvent} :
    event ∈ events ∧ event.txHash = tx.transactionHash ↔
      ∃ position call,
        tx.calls[position]? = some call ∧
          selectsTag contentTags call.contentTag = true ∧
          event = tx.event position call := by
  have same := (scanLogs_returned logged.asked truthful returned).2
  rw [same.mem_iff, registeredBetween]
  constructor
  · rintro ⟨member, ofTx⟩
    obtain ⟨batch, isBatch, rfl⟩ := List.mem_map.mp member
    obtain ⟨log, isLog, isBatchLog⟩ := List.mem_filterMap.mp isBatch
    have isAsked := List.mem_of_mem_filter isLog
    obtain ⟨position, call, isCall, asked, rfl⟩ :=
      logged.mem_batchLogs_iff.mp
        ⟨List.mem_filterMap.mpr ⟨log, isAsked, isBatchLog⟩, ofTx⟩
    exact ⟨position, call, isCall, asked, logged.toEvent isCall asked⟩
  · rintro ⟨position, call, isCall, asked, rfl⟩
    refine ⟨List.mem_map.mpr
      ⟨tx.batchLog position call, ?_, logged.toEvent isCall asked⟩, rfl⟩
    have isLog :=
      (logged.mem_asked_iff.mpr
        ⟨position, call, isCall, asked, .inr rfl⟩).1
    refine List.mem_filterMap.mpr
      ⟨_, List.mem_filter.mpr ⟨isLog, ?_⟩, rfl⟩
    exact decide_eq_true ⟨from_le, le_to⟩

end Logs

end RegisteringTx

end Bam
