import Bam.Lib.Purge
import Bam.Reader.Loop
import Bam.System.World

namespace Bam

/-!
# Several chains over one store

Every chain has a Poster and a Reader of its own; all of them share one
database.  A call is one of their store transactions, made for the chain its
services are configured with.
-/

/-- The tables the services of all chains share. -/
structure SharedDb where
  store : Store
  cursors : Table Nat ReaderCursorRow ReaderCursorRow.chainId

def SharedDb.empty : SharedDb where
  store := Store.empty
  cursors := Table.empty

/-- A call a Poster or a Reader makes to the store. -/
inductive ChainCall where
  | ingest (raw : RawEnvelope) (withinRateLimit : Bool) (now : Int)
  /-- The pools an aggregator tick reads. -/
  | snapshot
  /-- The confirm transaction of a submission. -/
  | confirm (outcome : PackedSubmitIncluded) (submittedAt : Int)
  | processBatch (opts : ProcessBatchOptions)
  | posterCandidates (head : Nat)
  | reorgBatch (batch : BatchRow) (invalidatedAt ingestedAt : Int)
  | readerCandidates (head : Nat)
  /-- The transaction of the Reader's watcher. -/
  | markReorged (batch : BatchRow) (invalidatedAt : Int)
  | getCursor
  | setCursor (lastBlockNumber lastTxIndex : Nat) (updatedAt : Int)
  | resetAll

inductive ChainAnswer where
  | ingested (answer : Except StoreError SubmitResult)
  | pools (answer : Except StoreError PoolView)
  | confirmed (answer : Except ConfirmError Unit)
  | processed
      (counters : ReaderCounters)
      (answer : Except ProcessBatchError ProcessBatchResult)
  | candidates (batches : List BatchRow)
  | reorged (answer : Except StoreError Unit)
  | cursor (row : Option ReaderCursorRow)
  | done

/-- The rows of a chain. -/
def MessageRow.ofChain
    (chain : Nat)
    (row : MessageRow) : Bool :=
  row.chainId = some chain

def BatchRow.ofChain
    (chain : Nat)
    (row : BatchRow) : Bool :=
  row.chainId = chain

def ReaderCursorRow.ofChain
    (chain : Nat)
    (row : ReaderCursorRow) : Bool :=
  row.chainId = chain

namespace Store

/-- `deleteMessages`. -/
def deleteMessages
    (store : Store)
    (chain : Nat) : Store :=
  { store with
    messages := store.messages.deleteWhere (MessageRow.ofChain chain) }

/-- `deleteBatches`. -/
def deleteBatches
    (store : Store)
    (chain : Nat) : Store :=
  { store with
    batches := store.batches.deleteWhere (BatchRow.ofChain chain) }

end Store

namespace SharedDb

/-- The store after a transaction: what it left, or what it found. -/
def commit
    {Error : Type}
    (db : SharedDb)
    (transaction : Except Error Store) :
    SharedDb × Except Error Unit :=
  match transaction with
  | .error error => (db, .error error)
  | .ok store => ({ db with store := store }, .ok ())

/-- One call of the services of a chain. -/
def call
    (config : SystemConfig)
    (db : SharedDb) : ChainCall → SharedDb × ChainAnswer
  | .ingest raw withinRateLimit now =>
      let (store, answer) :=
        Bam.ingest config.keccak256 config.ingest db.store raw
          withinRateLimit now
      ({ db with store := store }, .ingested answer)
  | .snapshot =>
      (db, .pools (snapshotPools db.store config.aggregator.tags))
  | .confirm outcome submittedAt =>
      let (next, answer) :=
        db.commit
          (confirmIncluded config.keccak256 config.loop db.store outcome
            submittedAt)
      (next, .confirmed answer)
  | .processBatch opts =>
      match Bam.processBatch config.libraries
          { opts with chainId := config.chainId } db.store
          emptyCounters with
      | (counters, .error error) =>
          (db, .processed counters (.error error))
      | (counters, .ok (store, result)) =>
          ({ db with store := store }, .processed counters (.ok result))
  | .posterCandidates head =>
      (db, .candidates
        (reorgCandidates config.chainId config.posterReorgWindow
          db.store head))
  | .reorgBatch batch invalidatedAt ingestedAt =>
      let (next, answer) :=
        db.commit
          (Bam.reorgBatch config.chainId db.store batch invalidatedAt
            ingestedAt)
      (next, .reorged answer)
  | .readerCandidates head =>
      (db, .candidates
        (readerReorgCandidates config.chainId config.readerReorgWindow
          db.store head))
  | .markReorged batch invalidatedAt =>
      let (next, answer) :=
        db.commit
          (readerReorgBatch config.chainId db.store batch invalidatedAt)
      (next, .reorged answer)
  | .getCursor => (db, .cursor (db.cursors.get? config.chainId))
  | .setCursor lastBlockNumber lastTxIndex updatedAt =>
      ({ db with
          cursors := db.cursors.put {
            chainId := config.chainId
            lastBlockNumber := lastBlockNumber
            lastTxIndex := lastTxIndex
            updatedAt := updatedAt } }, .done)
  | .resetAll =>
      ({ store :=
            (db.store.deleteMessages config.chainId).deleteBatches
              config.chainId
         cursors :=
            db.cursors.deleteWhere
              (ReaderCursorRow.ofChain config.chainId) }, .done)

/-- The message, batch and cursor rows of a chain. -/
def rowsOf
    (db : SharedDb)
    (chain : Nat) :
    List MessageRow × List BatchRow × List ReaderCursorRow :=
  (db.store.messages.select (MessageRow.ofChain chain),
    db.store.batches.select (BatchRow.ofChain chain),
    db.cursors.select (ReaderCursorRow.ofChain chain))

end SharedDb

/-- The services of every chain, each stamping its own chain id. -/
structure ChainServices where
  config : Nat → SystemConfig
  stamped : ∀ chain, (config chain).chainId = chain

namespace ChainServices

/-- A call of the services of the chain it is labelled with. -/
def step
    (services : ChainServices)
    (db : SharedDb)
    (label : Nat × ChainCall) : SharedDb × ChainAnswer :=
  db.call (services.config label.1) label.2

/-- The call is one of the given chain. -/
def isOf
    (chain : Nat)
    (label : Nat × ChainCall) : Bool :=
  label.1 = chain

/-- The rows a run leaves to a chain, and the answers to the chain's calls. -/
def outcome
    (services : ChainServices)
    (chain : Nat)
    (calls : List (Nat × ChainCall)) :
    (List MessageRow × List BatchRow × List ReaderCursorRow) ×
      List ChainAnswer :=
  let ended :=
    Purge.run services.step (isOf chain) SharedDb.empty calls
  (ended.1.rowsOf chain, ended.2)

/-- A run leaves a chain what the chain's own calls leave it. -/
def Isolated
    (services : ChainServices)
    (chain : Nat)
    (calls : List (Nat × ChainCall)) : Prop :=
  services.outcome chain calls =
    services.outcome chain (calls.filter (isOf chain))

end ChainServices

/-- The message an ingest call opens its transaction for. -/
def admittedMessage
    (keccak256 : Bytes → Bytes32)
    (opts : IngestPipelineOptions)
    (raw : RawEnvelope)
    (withinRateLimit : Bool) : Option DecodedMessage :=
  if opts.maxMessageSizeBytes < raw.byteLength then none
  else
    match parseEnvelope raw with
    | none => none
    | some envelope =>
        if opts.maxContentsSizeBytes < envelope.contents.length then none
        else if envelope.contentTag ∉ opts.allowlistedTags then none
        else
          match computeMessageHash keccak256 envelope.sender
              envelope.contentTag envelope.nonce envelope.contents with
          | none => none
          | some messageHash =>
              if !withinRateLimit then none
              else
                some {
                  sender := envelope.sender
                  nonce := envelope.nonce
                  contents := envelope.contents
                  contentTag := envelope.contentTag
                  signature := envelope.signature
                  messageHash := messageHash
                  ingestedAt := none }

/-- The end of `ingest` for its transaction. -/
def afterIngestTxn
    (store : Store)
    (transaction : Except StoreError (Store × SubmitResult)) :
    Store × Except StoreError SubmitResult :=
  match transaction with
  | .ok (next, result) => (next, .ok result)
  | .error (.duplicateMessage _ _) =>
      (store, .ok (.rejected .duplicate))
  | .error error => (store, .error error)

/-- `ingest` opens its transaction or rejects whatever the store holds. -/
theorem ingest_eq
    (keccak256 : Bytes → Bytes32)
    (opts : IngestPipelineOptions)
    (raw : RawEnvelope)
    (withinRateLimit : Bool) :
    match admittedMessage keccak256 opts raw withinRateLimit with
    | none =>
        ∃ reason, ∀ store now,
          ingest keccak256 opts store raw withinRateLimit now =
            (store, .ok (.rejected reason))
    | some decoded =>
        ∀ store now,
          ingest keccak256 opts store raw withinRateLimit now =
            afterIngestTxn store (ingestTxn opts store decoded now) := by
  unfold admittedMessage ingest
  by_cases tooLarge : opts.maxMessageSizeBytes < raw.byteLength
  · rw [if_pos tooLarge]
    exact ⟨.message_too_large, fun _ _ => if_pos tooLarge⟩
  simp only [if_neg tooLarge]
  cases parseEnvelope raw with
  | none =>
      exact ⟨.malformed, fun _ _ => rfl⟩
  | some envelope =>
      dsimp only
      by_cases tooLong :
          opts.maxContentsSizeBytes < envelope.contents.length
      · rw [if_pos tooLong]
        exact ⟨.message_too_large, fun _ _ => if_pos tooLong⟩
      simp only [if_neg tooLong]
      by_cases unknown : envelope.contentTag ∉ opts.allowlistedTags
      · rw [if_pos unknown]
        exact ⟨.unknown_tag, fun _ _ => if_pos unknown⟩
      simp only [if_neg unknown]
      cases computeMessageHash keccak256 envelope.sender
          envelope.contentTag envelope.nonce envelope.contents with
      | none =>
          exact ⟨.malformed, fun _ _ => rfl⟩
      | some messageHash =>
          cases withinRateLimit with
          | false =>
              exact ⟨.rate_limited, fun _ _ => rfl⟩
          | true =>
              intro store now
              rfl

/-- What a call goes by that no chain id scopes. -/
structure Footprint where
  /-- The message slots it may take. -/
  slots : List MessageKey
  /-- The senders whose nonces it tracks. -/
  senders : List Address
  /-- The tags it may queue a message under. -/
  queues : List Bytes32
  /-- The tags whose pools it reads. -/
  pools : List Bytes32
  /-- The transactions, with a tag, it may attach a message to. -/
  attaches : List (Bytes32 × Bytes32)
  /-- The transactions, with a tag, whose messages it reads. -/
  watches : List (Bytes32 × Bytes32)
  deriving Repr, DecidableEq

namespace Footprint

def none : Footprint :=
  ⟨[], [], [], [], [], []⟩

def ofIngest (decoded : DecodedMessage) : Footprint :=
  { none with
    slots := [decoded.key]
    senders := [decoded.sender]
    queues := [decoded.contentTag] }

def ofConfirm (outcome : PackedSubmitIncluded) : Footprint :=
  { none with
    slots :=
      outcome.entries.flatMap fun entry =>
        entry.messages.map DecodedMessage.key
    attaches :=
      outcome.entries.map fun entry =>
        (outcome.txHash, entry.contentTag) }

def ofSegment
    (opts : ProcessBatchOptions)
    (verified : List VerifiedEntry) : Footprint :=
  { none with
    slots :=
      verified.map fun entry =>
        (entry.message.sender, entry.message.nonce)
    attaches := [(opts.event.txHash, opts.event.contentTag)] }

def ofReorg (batch : BatchRow) : Footprint :=
  { none with
    queues := [batch.contentTag]
    watches := [(batch.txHash, batch.contentTag)] }

/-- The footprint of a call. -/
def of (config : SystemConfig) : ChainCall → Footprint
  | .ingest raw withinRateLimit _ =>
      (admittedMessage config.keccak256 config.ingest raw
        withinRateLimit).elim none ofIngest
  | .snapshot => { none with pools := config.aggregator.tags }
  | .confirm outcome _ => ofConfirm outcome
  | .processBatch opts =>
      (readSegment config.libraries
        { opts with chainId := config.chainId }).elim none
          (ofSegment opts)
  | .reorgBatch batch _ _ => ofReorg batch
  | _ => none

/-- The footprint of a segment that is read. -/
theorem of_processBatch
    {config : SystemConfig}
    {opts : ProcessBatchOptions}
    {verified : List VerifiedEntry}
    (isRead :
      readSegment config.libraries
          { opts with chainId := config.chainId } =
        some verified) :
    of config (.processBatch opts) =
      ofSegment { opts with chainId := config.chainId } verified := by
  rw [of, isRead]
  rfl

/-- Nothing a foreign call writes is read by an own call, or overwritten. -/
structure ClearOf (their own : Footprint) : Prop where
  slots : ∀ slot ∈ their.slots, slot ∉ own.slots
  senders : ∀ slot ∈ their.slots, slot.1 ∉ own.senders
  queues :
    ∀ tag ∈ their.queues, tag ∉ own.queues ∧ tag ∉ own.pools
  attaches : ∀ place ∈ their.attaches, place ∉ own.watches
  watches : ∀ place ∈ their.watches, place ∉ own.attaches

instance decidableClearOf (their own : Footprint) :
    Decidable (their.ClearOf own) :=
  decidable_of_iff
    ((their.slots.all fun slot => decide (slot ∉ own.slots)) ∧
      (their.slots.all fun slot => decide (slot.1 ∉ own.senders)) ∧
      (their.queues.all fun tag =>
        decide (tag ∉ own.queues ∧ tag ∉ own.pools)) ∧
      (their.attaches.all fun place => decide (place ∉ own.watches)) ∧
      their.watches.all fun place => decide (place ∉ own.attaches))
    (by
      simp only [List.all_eq_true, decide_eq_true_eq]
      exact ⟨fun clear =>
          ⟨clear.1, clear.2.1, clear.2.2.1, clear.2.2.2.1,
            clear.2.2.2.2⟩,
        fun clear =>
          ⟨clear.slots, clear.senders, clear.queues, clear.attaches,
            clear.watches⟩⟩)

end Footprint

namespace ChainServices

/-- The footprints of the calls of a run that a condition picks. -/
def footprints
    (services : ChainServices)
    (calls : List (Nat × ChainCall))
    (picks : Nat × ChainCall → Bool) : List Footprint :=
  (calls.filter picks).map fun label =>
    Footprint.of (services.config label.1) label.2

/-- No call of another chain goes by what a call of the chain goes by. -/
def KeepsClear
    (services : ChainServices)
    (chain : Nat)
    (calls : List (Nat × ChainCall)) : Prop :=
  ∀ their ∈ services.footprints calls (fun label => !isOf chain label),
    ∀ own ∈ services.footprints calls (isOf chain),
      their.ClearOf own

instance decidableKeepsClear
    (services : ChainServices)
    (chain : Nat)
    (calls : List (Nat × ChainCall)) :
    Decidable (services.KeepsClear chain calls) :=
  inferInstanceAs (Decidable (∀ _ ∈ _, ∀ _ ∈ _, Footprint.ClearOf _ _))

end ChainServices

end Bam
