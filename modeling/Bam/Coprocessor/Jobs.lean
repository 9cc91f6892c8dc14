import Bam.Coprocessor.Pipeline

namespace Bam.Coprocessor

open Usize

/-!
# The coprocessor's jobs

The validation job executes the circuit on every message of the forum past its
watermark, the proof job proves it.  Both read one page of the Reader's
listing, take its messages in chain order, and stop at the first that fails.
-/

/-- The coordinate of the last message a job recorded. -/
structure Watermark where
  blockNumber : Int64
  txIndex : Int32
  msgIndex : Int32
  deriving Repr, DecidableEq

/-- `Watermark::default`. -/
def Watermark.default : Watermark where
  blockNumber := 0
  txIndex := 0
  msgIndex := 0

/-- The tuple a watermark is compared as. -/
def Watermark.sortKey (watermark : Watermark) : List Int :=
  [watermark.blockNumber.toInt, watermark.txIndex.toInt,
    watermark.msgIndex.toInt]

/-- A message as the Reader's API returns it, as far as the jobs read it. -/
structure ApiMessage where
  messageHash : Bytes32
  batchRef : Option Bytes32
  blockNumber : Option UInt64
  txIndex : Option UInt32
  messageIndexWithinBatch : Option UInt32
  deriving Repr, DecidableEq

/-- The row as the client parses it; `none` where a number does not fit. -/
def ApiMessage.ofRow? (row : MessageRow) : Option ApiMessage := do
  let blockNumber ← row.blockNumber.mapM (parseUnsigned 64)
  let txIndex ← row.txIndex.mapM (parseUnsigned 32)
  let messageIndex ←
    row.messageIndexWithinBatch.mapM (parseUnsigned 32)
  return {
    messageHash := row.messageHash
    batchRef := row.batchRef
    blockNumber := blockNumber.map UInt64.ofNat
    txIndex := txIndex.map UInt32.ofNat
    messageIndexWithinBatch := messageIndex.map UInt32.ofNat }

/-- The confirmed messages of a tag, as the Reader lists them. -/
def ReaderService.confirmedMessages
    (service : ReaderService)
    (contentTag : Bytes32) : List MessageRow :=
  service.store.confirmedMessages contentTag

/-- `LIMIT_MAX` of the Reader's listings. -/
def LIST_LIMIT : Nat := 1000

/-- `list_messages`; `none` where the response does not parse. -/
def listMessages
    (service : ReaderService)
    (contentTag : Bytes32) : Option (List ApiMessage) :=
  ((service.confirmedMessages contentTag).take LIST_LIMIT).mapM
    ApiMessage.ofRow?

/-- A message a job takes up. -/
structure Candidate where
  blockNumber : Int64
  txIndex : Int32
  msgIndex : Int32
  batchRef : Bytes32
  expectedMessageHash : Bytes32
  deriving Repr, DecidableEq

/-- The coordinate of a candidate. -/
def Candidate.coord (candidate : Candidate) : Watermark where
  blockNumber := candidate.blockNumber
  txIndex := candidate.txIndex
  msgIndex := candidate.msgIndex

/-- The candidate of a listed message, if it lies past the watermark. -/
def ApiMessage.candidate?
    (watermark : Watermark)
    (message : ApiMessage) : Option Candidate :=
  match message.blockNumber, message.txIndex,
      message.messageIndexWithinBatch with
  | some block, some tx, some msg =>
      let coord : Watermark := {
        blockNumber := block.toInt64
        txIndex := tx.toInt32
        msgIndex := msg.toInt32 }
      if coord.sortKey ≤ watermark.sortKey then none
      else
        message.batchRef.map fun batchRef => {
          blockNumber := coord.blockNumber
          txIndex := coord.txIndex
          msgIndex := coord.msgIndex
          batchRef := batchRef
          expectedMessageHash := message.messageHash }
  | _, _, _ => none

/-- The limit of a tick, as an `i32`. -/
def batchLimit (limit : UInt32) : Nat :=
  if limit.toNat < 2 ^ 31 then limit.toNat else 2 ^ 31 - 1

/-- `fetch_unvalidated_messages` and `fetch_unproven_messages`. -/
def fetchCandidates
    (service : ReaderService)
    (forumTag : Bytes32)
    (watermark : Watermark)
    (limit : UInt32) : Option (List Candidate) :=
  (listMessages service forumTag).map fun api =>
    (Table.orderBy (fun candidate => candidate.coord.sortKey)
      (api.filterMap (ApiMessage.candidate? watermark))).take
        (batchLimit limit)

/-- The programs and libraries a job runs on. -/
structure CircuitHost where
  guest : GuestLibraries
  kzg : KzgLibraries
  target : Target
  chainId : UInt64
  /-- The instruction count of `execute_c1`. -/
  totalCycles : BlobInput → UInt32 → UInt64
  /-- The proof of `prove_c1`. -/
  proveC1 : BlobInput → UInt32 → Bytes

/-- A row of `coprocessor.validations`. -/
structure ValidationRow where
  messageHash : Bytes32
  chainId : Int64
  versionedHash : Bytes32
  contentTag : Bytes32
  startFE : Int32
  endFE : Int32
  blockNumber : Int64
  txIndex : Int32
  msgIndex : Int32
  sender : Bytes
  nonce : Int64
  cycles : Int64
  deriving Repr, DecidableEq

/-- The primary key of both tables. -/
def ValidationRow.key (row : ValidationRow) : Int64 × Bytes32 :=
  (row.chainId, row.messageHash)

/-- A row of `coprocessor.proofs`. -/
structure ProofFullRow extends ValidationRow where
  proofSize : Int32
  proofBytes : Bytes
  publicValues : PublicValues
  deriving Repr, DecidableEq

def ProofFullRow.key (row : ProofFullRow) : Int64 × Bytes32 :=
  row.toValidationRow.key

/-- Why a candidate fails. -/
inductive JobError where
  | pipeline (error : PipelineError)
  | otherBatch
  | executeFailed
  | messageHashMismatch (computed expected : Bytes32)
  | nonceOverflows
  | cyclesOverflow
  deriving Repr, DecidableEq

/-- The columns of public values, if they fit theirs. -/
def PublicValues.toRow
    (values : PublicValues)
    (cycles : UInt64) : Except JobError ValidationRow :=
  if 2 ^ 63 ≤ values.nonce.toNat then .error .nonceOverflows
  else if 2 ^ 63 ≤ cycles.toNat then .error .cyclesOverflow
  else
    .ok {
      messageHash := values.messageHash
      chainId := values.chainId.toInt64
      versionedHash := values.versionedHash
      contentTag := values.contentTag
      startFE := values.startFE.toUInt32.toInt32
      endFE := values.endFE.toUInt32.toInt32
      blockNumber := values.blockNumber.toInt64
      txIndex := values.txIndex.toInt32
      msgIndex := values.msgIndex.toInt32
      sender := values.sender
      nonce := values.nonce.toInt64
      cycles := cycles.toInt64 }

/-- The coordinate of public values. -/
def PublicValues.watermark (values : PublicValues) : Watermark where
  blockNumber := values.blockNumber.toInt64
  txIndex := values.txIndex.toInt32
  msgIndex := values.msgIndex.toInt32

/-- What both jobs do with a candidate before they record it; no value where
the Reader's archive is not ready. -/
def certifyOne
    (host : CircuitHost)
    (service : ReaderService)
    (candidate : Candidate)
    (ensures : ApiBatch → Bool) :
    Except JobError
      (Option (BlobInput × PublicValues × ValidationRow)) :=
  match fetchOneBatchReaderOnly host.kzg service
      (.txHash candidate.batchRef) with
  | .error error => .error (.pipeline error)
  | .ok none => .ok none
  | .ok (some (api, input)) =>
      if ensures api = false then .error .otherBatch
      else
        match guestMain host.guest host.target host.chainId input
            candidate.msgIndex.toUInt32 with
        | none => .error .executeFailed
        | some values =>
            if values.messageHash ≠ candidate.expectedMessageHash then
              .error (.messageHashMismatch values.messageHash
                candidate.expectedMessageHash)
            else
              (values.toRow (host.totalCycles input
                candidate.msgIndex.toUInt32)).map fun row =>
                  some (input, values, row)

/-- `validate_one`, up to its transaction. -/
def validateOne
    (host : CircuitHost)
    (service : ReaderService)
    (candidate : Candidate) :
    Except JobError (Option (ValidationRow × Watermark)) :=
  (certifyOne host service candidate fun _ => true).map
    (Option.map fun (_, values, row) => (row, values.watermark))

/-- `prove_one`, up to its transaction. -/
def proveOne
    (host : CircuitHost)
    (service : ReaderService)
    (candidate : Candidate) :
    Except JobError (Option (ProofFullRow × Watermark)) :=
  (certifyOne host service candidate fun api =>
    api.blockNumber = some candidate.blockNumber.toUInt64 &&
      api.txIndex = some candidate.txIndex.toUInt32).map
    (Option.map fun (input, values, row) =>
      let proofBytes :=
        host.proveC1 input candidate.msgIndex.toUInt32
      ({ row with
          proofSize := Int32.ofNat proofBytes.length
          proofBytes := proofBytes
          publicValues := values }, values.watermark))

/-- The table and the watermark of a job. -/
structure JobState (Row : Type) (key : Row → Int64 × Bytes32) where
  rows : Table (Int64 × Bytes32) Row key
  stored : Option Watermark

namespace JobState

variable {Row : Type} {key : Row → Int64 × Bytes32}

def empty : JobState Row key where
  rows := Table.empty
  stored := none

/-- `read_watermark`. -/
def watermark (state : JobState Row key) : Watermark :=
  state.stored.getD Watermark.default

/-- The transaction of a recorded message. -/
def commit
    (state : JobState Row key)
    (row : Row)
    (watermark : Watermark) : JobState Row key where
  rows := state.rows.insertNew row
  stored := some watermark

/-- A job has a row for a message of a chain. -/
def Recorded
    (state : JobState Row key)
    (chainId : UInt64)
    (messageHash : Bytes32) : Prop :=
  (state.rows.get? (chainId.toInt64, messageHash)).isSome = true

end JobState

/-- How the services a candidate needs answer: they do, one of them fails, or
the commit is done and its answer lost. -/
inductive Answer where
  | answered
  | failed
  | commitLost
  deriving Repr, DecidableEq

/-- The loop over the candidates of a tick. -/
def processCandidates
    {Row : Type}
    {key : Row → Int64 × Bytes32}
    (attempt :
      Candidate → Except JobError (Option (Row × Watermark)))
    (answers : Candidate → Answer) :
    List Candidate → JobState Row key → JobState Row key
  | [], state => state
  | candidate :: rest, state =>
      match answers candidate, attempt candidate with
      | .answered, .ok (some (row, watermark)) =>
          processCandidates attempt answers rest
            (state.commit row watermark)
      | .commitLost, .ok (some (row, watermark)) =>
          state.commit row watermark
      | _, _ => state

/-- What a tick meets: it is fenced off or does not get a page, or it gets one
and its candidates are answered. -/
structure TickCall where
  starts : Bool
  answers : Candidate → Answer

/-- A tick that meets no infrastructure failure. -/
def TickCall.Clean (call : TickCall) : Prop :=
  call.starts = true ∧ ∀ candidate, call.answers candidate = .answered

/-- A tick of a job. -/
def runTick
    {Row : Type}
    {key : Row → Int64 × Bytes32}
    (attempt :
      Candidate → Except JobError (Option (Row × Watermark)))
    (service : ReaderService)
    (forumTag : Bytes32)
    (limit : UInt32)
    (call : TickCall)
    (state : JobState Row key) : JobState Row key :=
  if call.starts = false then state
  else
    match fetchCandidates service forumTag state.watermark limit with
    | none => state
    | some candidates =>
        processCandidates attempt call.answers candidates state

end Bam.Coprocessor
