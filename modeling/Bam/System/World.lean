import Bam.Lib.Runs
import Bam.Poster.AggregatorLoop
import Bam.Poster.Ingest
import Bam.Reader.ProcessBatch
import Bam.Reader.ReorgWatcher

namespace Bam

/-!
# A Poster and a Reader over one store

The state of both services between two of their atomic steps.  A step is a
store transaction, a call to the network that was answered, or the end of
either: an aggregator tick is cut at its broadcast, its receipt and its confirm
transaction, a watcher tick at every lookup and every mark.  What the network
answers is chosen by the event, so a run covers every transport and every
order.

The fields `accepted` and `marks`, and the fields of ticks and broadcasts that
say what came before them, record history.  No step reads them.
-/

structure SystemConfig where
  libraries : ReaderLibraries
  ingest : IngestPipelineOptions
  policy : DefaultBatchPolicyConfig
  maxTagsPerPack : Nat
  capacityFEs : Option Nat
  capacityBytes : Option Nat
  blobCapacityBytes : Nat
  posterReorgWindow : Option Int
  readerReorgWindow : Option Int
  commitToBlob : Bytes → Bytes32
  submitter : Address
  /-- Contents that ingest lets through have a length the codec can write. -/
  contentsFit : ingest.maxContentsSizeBytes ≤ MAX_UINT32

namespace SystemConfig

def chainId (config : SystemConfig) : Nat :=
  config.ingest.chainId

def keccak256 (config : SystemConfig) : Bytes → Bytes32 :=
  config.libraries.crypto.keccak256

/-- The aggregator as `createPoster` wires it with the default encoder. -/
def aggregator (config : SystemConfig) : AggregatorOptions where
  policy := defaultBatchPolicy config.policy
  tags := config.ingest.allowlistedTags
  maxTagsPerPack := config.maxTagsPerPack
  capacityFEs := config.capacityFEs
  capacityBytes := config.capacityBytes
  blobCapacityBytes := config.blobCapacityBytes
  encodeBatch := none

def loop (config : SystemConfig) : AggregatorLoopOptions where
  chainId := config.chainId
  reorgWindowBlocks := (clampReorgWindow config.posterReorgWindow).toNat

end SystemConfig

/-- An aggregator tick between its self-check and its broadcast. -/
structure PendingTick where
  pack : PackResult
  blobVersionedHash : Bytes32
  /-- The transactions recorded when the tick read its pools. -/
  recordedBefore : List Bytes32
  deriving Repr, DecidableEq

/-- How far the tick that broadcast a transaction has come. -/
inductive BroadcastPhase where
  | awaiting
  | included (receipt : TransactionReceipt)
  | recorded (receipt : TransactionReceipt)
  | abandoned
  deriving Repr, DecidableEq

/-- A broadcast transaction. -/
structure Broadcast where
  txHash : Bytes32
  pack : PackResult
  blobVersionedHash : Bytes32
  phase : BroadcastPhase
  /-- The transactions broadcast before it. -/
  earlier : List Bytes32
  /-- The transactions marked reorged before it was broadcast. -/
  markedBefore : List Bytes32
  deriving Repr, DecidableEq

/-- The receipt lookup of a block source's node. -/
inductive ReceiptAnswer where
  | receipt (blockNumber : Nat)
  | notFound
  | rpcError
  deriving Repr, DecidableEq

/-- `getTransactionBlock` of either service: the adapter turns an error of the
lookup into `null`. -/
def getTransactionBlock : ReceiptAnswer → Option Nat
  | .receipt blockNumber => some blockNumber
  | .notFound => none
  | .rpcError => none

/-- A batch whose lookup answered `null` and that is not marked yet. -/
structure Judgement where
  batch : BatchRow
  answer : ReceiptAnswer
  deriving Repr, DecidableEq

/-- A watcher tick in progress. -/
structure WatchTick where
  candidates : List BatchRow
  judged : Option Judgement
  /-- The transactions this tick has marked. -/
  marked : List Bytes32
  /-- The transactions this tick has found on chain. -/
  kept : List Bytes32
  deriving Repr, DecidableEq

/-- A transaction marked reorged, and what the watcher had been told. -/
structure Mark where
  txHash : Bytes32
  answer : ReceiptAnswer
  /-- The transaction was on the canonical chain when it was marked. -/
  onChain : Bool
  deriving Repr, DecidableEq

structure World where
  store : Store
  aggregatorState : AggregatorState
  permanentlyStopped : Bool
  ticks : List PendingTick
  broadcasts : Table Bytes32 Broadcast Broadcast.txHash
  posterWatch : Option WatchTick
  readerWatch : Option WatchTick
  /-- The transactions on the canonical chain. -/
  canonical : List Bytes32
  /-- The messages ingest answered `accepted` to. -/
  accepted : List DecodedMessage
  marks : List Mark

def World.initial : World where
  store := Store.empty
  aggregatorState := fun _ => ⟨0, none, 0⟩
  permanentlyStopped := false
  ticks := []
  broadcasts := Table.empty
  posterWatch := none
  readerWatch := none
  canonical := []
  accepted := []
  marks := []

/-- What came of `sendBlobTransaction`. -/
inductive SendResult where
  | accepted (txHash : Bytes32)
  /-- The node took the transaction and its answer was lost. -/
  | lost (txHash : Bytes32) (error : ErrorText)
  | refused (error : ErrorText)
  deriving Repr, DecidableEq

/-- A step of a watcher tick. -/
inductive WatchAction where
  | start (head : Nat)
  | lookup (answer : ReceiptAnswer)
  | mark (invalidatedAt ingestedAt : Int)
  /-- The tick throws, or its process stops. -/
  | stop
  deriving Repr, DecidableEq

/-- What the Poster does and meets. -/
inductive PosterEvent where
  | ingest (raw : RawEnvelope) (withinRateLimit : Bool) (now : Int)
  | tickStart (now : Int)
  | tickSend (index : Nat) (result : SendResult)
  | tickReceipt
      (txHash : Bytes32) (result : Except ErrorText TransactionReceipt)
  | tickConfirm (txHash : Bytes32) (submittedAt : Int)
  /-- The tick that waits on a broadcast throws. -/
  | tickFail (txHash : Bytes32)
  /-- A tick throws before its broadcast. -/
  | tickDrop (index : Nat)
  | restart
  | watch (action : WatchAction)
  | chain (canonical : List Bytes32)

namespace World

/-- The transactions whose confirm transaction has committed. -/
def recorded (world : World) : List Bytes32 :=
  (world.broadcasts.select fun broadcast =>
    match broadcast.phase with
    | .recorded _ => true
    | _ => false).map Broadcast.txHash

/-- The transactions marked reorged so far. -/
def marked (world : World) : List Bytes32 :=
  world.marks.map Mark.txHash

/-- The tail of `buildAndSubmitMulti` and of the loop for a transport error. -/
def afterError
    (world : World)
    (error : ErrorText) : World :=
  { world with
    permanentlyStopped :=
      world.permanentlyStopped ||
        classifySubmissionError error = .permanent }

/-- The message a request spells, with its hash. -/
def requestedMessage
    (keccak256 : Bytes → Bytes32)
    (raw : RawEnvelope) : Option DecodedMessage :=
  (parseEnvelope raw).bind fun envelope =>
    (computeMessageHash keccak256 envelope.sender envelope.contentTag
      envelope.nonce envelope.contents).map fun messageHash =>
        { sender := envelope.sender
          nonce := envelope.nonce
          contents := envelope.contents
          contentTag := envelope.contentTag
          signature := envelope.signature
          messageHash := messageHash
          ingestedAt := none }

/-- The messages accepted after a request was answered. -/
def acceptedAfter
    (accepted : List DecodedMessage)
    (message : Option DecodedMessage)
    (answer : Except StoreError SubmitResult) : List DecodedMessage :=
  match answer with
  | .ok (.accepted _) => message.toList ++ accepted
  | _ => accepted

def ingest
    (config : SystemConfig)
    (world : World)
    (raw : RawEnvelope)
    (withinRateLimit : Bool)
    (now : Int) : World :=
  let (next, answer) :=
    Bam.ingest config.keccak256 config.ingest world.store raw
      withinRateLimit now
  { world with
    store := next
    accepted :=
      acceptedAfter world.accepted
        (requestedMessage config.keccak256 raw) answer }

/-- `AggregatorLoop.tick` up to the broadcast. -/
def tickStart
    (config : SystemConfig)
    (world : World)
    (now : Int) : World :=
  if world.permanentlyStopped then world
  else
    match snapshotPools world.store config.aggregator.tags with
    | .error _ => world
    | .ok pool =>
        match aggregatorTick config.aggregator world.aggregatorState
            { pool, now } with
        | .error _ => world
        | .ok (state, none) => { world with aggregatorState := state }
        | .ok (state, some pack) =>
            if pack.plan.included = [] then
              { world with aggregatorState := state }
            else
              match prepareSubmission config.libraries.decompress
                  config.commitToBlob pack with
              | .error _ =>
                  { world with
                    aggregatorState := state
                    permanentlyStopped := true }
              | .ok prepared =>
                  { world with
                    aggregatorState := state
                    ticks := world.ticks ++ [
                      { pack := pack
                        blobVersionedHash := prepared.blobVersionedHash
                        recordedBefore := world.recorded }] }

/-- The transaction a tick broadcasts. -/
def broadcastOf
    (world : World)
    (tick : PendingTick)
    (txHash : Bytes32)
    (phase : BroadcastPhase) : Broadcast where
  txHash := txHash
  pack := tick.pack
  blobVersionedHash := tick.blobVersionedHash
  phase := phase
  earlier := world.broadcasts.rows.map Broadcast.txHash
  markedBefore := world.marked

/-- A tick broadcasts; transaction hashes are not used twice. -/
def send
    (world : World)
    (index : Nat)
    (tick : PendingTick)
    (txHash : Bytes32)
    (phase : BroadcastPhase) : Option World :=
  match world.broadcasts.get? txHash with
  | some _ => none
  | none =>
      some { world with
        ticks := world.ticks.eraseIdx index
        broadcasts :=
          world.broadcasts.put (world.broadcastOf tick txHash phase) }

def tickSend
    (world : World)
    (index : Nat)
    (result : SendResult) : Option World :=
  match world.ticks[index]? with
  | none => none
  | some tick =>
      match result with
      | .accepted txHash => world.send index tick txHash .awaiting
      | .lost txHash error =>
          (world.send index tick txHash .abandoned).map
            fun next => next.afterError error
      | .refused error =>
          some (afterError
            { world with ticks := world.ticks.eraseIdx index } error)

/-- A broadcast in another phase. -/
def setPhase
    (world : World)
    (broadcast : Broadcast)
    (phase : BroadcastPhase) : World :=
  { world with
    broadcasts :=
      world.broadcasts.put { broadcast with phase := phase } }

def tickReceipt
    (world : World)
    (txHash : Bytes32)
    (result : Except ErrorText TransactionReceipt) : Option World :=
  match world.broadcasts.get? txHash with
  | none => none
  | some broadcast =>
      match broadcast.phase with
      | .awaiting =>
          match result with
          | .ok receipt =>
              some (world.setPhase broadcast (.included receipt))
          | .error error =>
              some ((world.setPhase broadcast .abandoned).afterError error)
      | _ => none

/-- The outcome `buildAndSubmitMulti` returns for an included broadcast. -/
def outcomeOf
    (config : SystemConfig)
    (broadcast : Broadcast)
    (receipt : TransactionReceipt) : PackedSubmitIncluded :=
  includedOutcome broadcast.pack broadcast.txHash
    broadcast.blobVersionedHash config.submitter (waitForReceipt receipt)

def tickConfirm
    (config : SystemConfig)
    (world : World)
    (txHash : Bytes32)
    (submittedAt : Int) : Option World :=
  match world.broadcasts.get? txHash with
  | none => none
  | some broadcast =>
      match broadcast.phase with
      | .included receipt =>
          match confirmIncluded config.keccak256 config.loop world.store
              (outcomeOf config broadcast receipt) submittedAt with
          | .error _ => some (world.setPhase broadcast .abandoned)
          | .ok next =>
              some { world.setPhase broadcast (.recorded receipt) with
                store := next }
      | _ => none

/-- The tick behind a broadcast still runs. -/
def inFlight (broadcast : Broadcast) : Bool :=
  match broadcast.phase with
  | .awaiting => true
  | .included _ => true
  | _ => false

def tickFail
    (world : World)
    (txHash : Bytes32) : Option World :=
  match world.broadcasts.get? txHash with
  | none => none
  | some broadcast =>
      if inFlight broadcast then
        some (world.setPhase broadcast .abandoned)
      else none

/-- The Poster's process stops and starts again. -/
def restart (world : World) : World :=
  { world with
    aggregatorState := World.initial.aggregatorState
    permanentlyStopped := false
    ticks := []
    broadcasts :=
      world.broadcasts.update inFlight
        (fun broadcast => { broadcast with phase := .abandoned })
        (fun _ => rfl)
    posterWatch := none }

/-- An answer agrees with the canonical chain, unless it is an error. -/
def truthful
    (world : World)
    (txHash : Bytes32) : ReceiptAnswer → Bool
  | .receipt _ => txHash ∈ world.canonical
  | .notFound => txHash ∉ world.canonical
  | .rpcError => true

end World

namespace WatchTick

/-- A tick over its candidates. -/
def begin (candidates : List BatchRow) : WatchTick where
  candidates := candidates
  judged := none
  marked := []
  kept := []

/-- A tick with nothing left to do is over. -/
def settle (tick : WatchTick) : Option WatchTick :=
  if tick.judged = none ∧ tick.candidates = [] then none else some tick

/-- The tick after the lookup of its next candidate. -/
def lookup
    (tick : WatchTick)
    (batch : BatchRow)
    (rest : List BatchRow)
    (answer : ReceiptAnswer) : WatchTick :=
  match getTransactionBlock answer with
  | some _ =>
      { tick with
        candidates := rest
        kept := batch.txHash :: tick.kept }
  | none =>
      { tick with
        candidates := rest
        judged := some { batch, answer } }

/-- The tick after the mark of the batch it judged dropped. -/
def afterMark
    (tick : WatchTick)
    (judgement : Judgement) : WatchTick :=
  { tick with
    judged := none
    marked := judgement.batch.txHash :: tick.marked }

end WatchTick

/-- What a step of a watcher tick leaves: the tick, the store, the marks. -/
abbrev WatchOutcome := Option WatchTick × Store × List Mark

/-- The lookup of the next candidate. -/
def lookupStep
    (world : World)
    (tick : WatchTick)
    (answer : ReceiptAnswer) : Option WatchOutcome :=
  match tick.judged, tick.candidates with
  | none, batch :: rest =>
      if world.truthful batch.txHash answer then
        some ((tick.lookup batch rest answer).settle, world.store,
          world.marks)
      else none
  | _, _ => none

/-- The store transaction for the batch judged dropped. -/
def markStep
    (world : World)
    (reorg : BatchRow → Except StoreError Store)
    (tick : WatchTick) : Option WatchOutcome :=
  match tick.judged with
  | none => none
  | some judgement =>
      match reorg judgement.batch with
      | .error _ => some (none, world.store, world.marks)
      | .ok next =>
          some ((tick.afterMark judgement).settle, next,
            { txHash := judgement.batch.txHash
              answer := judgement.answer
              onChain := judgement.batch.txHash ∈ world.canonical } ::
              world.marks)

/-- One step of a watcher. -/
def watchStep
    (world : World)
    (candidates : Nat → List BatchRow)
    (reorg : Int → Int → BatchRow → Except StoreError Store) :
    Option WatchTick → WatchAction → Option WatchOutcome
  | none, .start head =>
      some ((WatchTick.begin (candidates head)).settle, world.store,
        world.marks)
  | some tick, .lookup answer => lookupStep world tick answer
  | some tick, .mark invalidatedAt ingestedAt =>
      markStep world (reorg invalidatedAt ingestedAt) tick
  | some _, .stop => some (none, world.store, world.marks)
  | _, _ => none

namespace World

/-- A step of the Poster's watcher. -/
def posterWatchStep
    (config : SystemConfig)
    (world : World)
    (action : WatchAction) : Option World :=
  (watchStep world
    (reorgCandidates config.chainId config.posterReorgWindow world.store)
    (fun invalidatedAt ingestedAt batch =>
      reorgBatch config.chainId world.store batch invalidatedAt
        ingestedAt)
    world.posterWatch action).map fun (watch, store, marks) =>
      { world with posterWatch := watch, store := store, marks := marks }

/-- A step of the Reader's watcher. -/
def readerWatchStep
    (config : SystemConfig)
    (world : World)
    (action : WatchAction) : Option World :=
  (watchStep world
    (readerReorgCandidates config.chainId config.readerReorgWindow
      world.store)
    (fun invalidatedAt _ batch =>
      readerReorgBatch config.chainId world.store batch invalidatedAt)
    world.readerWatch action).map fun (watch, store, marks) =>
      { world with readerWatch := watch, store := store, marks := marks }

end World

/-- A step of the Poster. -/
def posterStep
    (config : SystemConfig)
    (world : World) : PosterEvent → Option World
  | .ingest raw withinRateLimit now =>
      some (world.ingest config raw withinRateLimit now)
  | .tickStart now => some (world.tickStart config now)
  | .tickSend index result => world.tickSend index result
  | .tickReceipt txHash result => world.tickReceipt txHash result
  | .tickConfirm txHash submittedAt =>
      world.tickConfirm config txHash submittedAt
  | .tickFail txHash => world.tickFail txHash
  | .tickDrop index =>
      some { world with ticks := world.ticks.eraseIdx index }
  | .restart => some world.restart
  | .watch action => world.posterWatchStep config action
  | .chain canonical => some { world with canonical := canonical }

/-- What happens while a Reader's watcher runs beside the Poster. -/
inductive SharedEvent where
  | poster (event : PosterEvent)
  | readerWatch (action : WatchAction)

/-- A step of the Poster or of the Reader's watcher. -/
def sharedStep
    (config : SystemConfig)
    (world : World) : SharedEvent → Option World
  | .poster event => posterStep config world event
  | .readerWatch action => world.readerWatchStep config action

/-- What happens while a whole Reader runs beside the Poster. -/
inductive SystemEvent where
  | shared (event : SharedEvent)
  | processBatch (opts : ProcessBatchOptions)

/-- A step of the Poster or of the Reader. -/
def systemStep
    (config : SystemConfig)
    (world : World) : SystemEvent → Option World
  | .shared event => sharedStep config world event
  | .processBatch opts =>
      if opts.chainId = config.chainId then
        match (processBatch config.libraries opts world.store
            emptyCounters).2 with
        | .ok (next, _) => some { world with store := next }
        | .error _ => some world
      else none

end Bam
