import Bam.Reader.Decode
import Bam.Store.Observe

namespace Bam

/-!
# Processing one registered batch

`processBatch` fetches a blob, decodes the segment, verifies its messages and
writes the batch row with the snapshot of the verified messages and one row for
each of them.  What the network answers is part of the options.
-/

structure BlobBatchRegisteredEvent where
  blockNumber : Nat
  txIndex : Nat
  /-- Position of the log within its block. -/
  logIndex : Nat
  txHash : Bytes32
  versionedHash : Bytes32
  submitter : Address
  contentTag : Bytes32
  decoder : Address
  signatureRegistry : Address
  startFE : Option Nat
  endFE : Option Nat
  deriving Repr, DecidableEq

structure ReaderCounters where
  decoded : Nat
  skippedDecode : Nat
  skippedVerify : Nat
  skippedConflict : Nat
  undecodable : Nat
  skippedRange : Nat
  deriving Repr, DecidableEq

def emptyCounters : ReaderCounters where
  decoded := 0
  skippedDecode := 0
  skippedVerify := 0
  skippedConflict := 0
  undecodable := 0
  skippedRange := 0

/-- The libraries a Reader links. -/
structure ReaderLibraries where
  crypto : CryptoLibraries
  /-- The zstd decompressor. -/
  decompress : Bytes → Except BatchError Bytes

structure ProcessBatchOptions where
  event : BlobBatchRegisteredEvent
  l1IncludedAtUnixSec : Option Nat
  chainId : Nat
  /-- What the blob sources deliver. -/
  fetchBlob : Option Bytes
  /-- The on-chain decoder's answer to the usable bytes. -/
  decodeAnswer : Bytes → DecoderAnswer
  /-- The registry's answer to the call for the message of an index. -/
  verifyAnswer : Nat → RegistryAnswer

inductive ProcessBatchOutcome where
  | decoded
  | unreachable
  | decode_failed
  | range_rejected
  deriving Repr, DecidableEq

structure ProcessBatchResult where
  txIndex : Nat
  blockNumber : Nat
  outcome : ProcessBatchOutcome
  messagesWritten : Nat
  deriving Repr, DecidableEq

/-- What `processBatch` throws. -/
inductive ProcessBatchError where
  | extract (error : BlobError)
  | nonceOutOfRange
  | store (error : StoreError)
  deriving Repr, DecidableEq

/-- A message that passed its verification. -/
structure VerifiedEntry where
  message : BAMMessage
  signature : Bytes
  indexWithinBatch : Nat
  messageHash : Bytes32
  deriving Repr, DecidableEq

/-- The batch row without a snapshot. -/
def ProcessBatchOptions.baseBatch
    (opts : ProcessBatchOptions) : BatchRow where
  txHash := opts.event.txHash
  chainId := opts.chainId
  contentTag := opts.event.contentTag
  blobVersionedHash := opts.event.versionedHash
  batchContentHash := opts.event.versionedHash
  blockNumber := some opts.event.blockNumber
  txIndex := some opts.event.txIndex
  status := .confirmed
  replacedByTxHash := none
  submittedAt := none
  invalidatedAt := none
  submitter := some opts.event.submitter
  l1IncludedAtUnixSec := opts.l1IncludedAtUnixSec
  messageSnapshot := []

def ProcessBatchOptions.result
    (opts : ProcessBatchOptions)
    (outcome : ProcessBatchOutcome)
    (messagesWritten : Nat) : ProcessBatchResult where
  txIndex := opts.event.txIndex
  blockNumber := opts.event.blockNumber
  outcome := outcome
  messagesWritten := messagesWritten

/-- The verify loop from a message index on. -/
def verifyMessages
    (libraries : ReaderLibraries)
    (opts : ProcessBatchOptions) :
    Nat → List (BAMMessage × Bytes) → ReaderCounters →
      ReaderCounters × Except ProcessBatchError (List VerifiedEntry)
  | _, [], counters => (counters, .ok [])
  | index, (message, signature) :: rest, counters =>
      match computeMessageHash libraries.crypto.keccak256 message.sender
          opts.event.contentTag message.nonce message.contents with
      | none => (counters, .error .nonceOutOfRange)
      | some messageHash =>
          if verifyMessage libraries.crypto opts.event.signatureRegistry
              message opts.event.contentTag signature opts.chainId
              (opts.verifyAnswer index) then
            match verifyMessages libraries opts (index + 1) rest
                counters with
            | (after, .error error) => (after, .error error)
            | (after, .ok verified) =>
                (after, .ok (
                  { message, signature, indexWithinBatch := index,
                    messageHash } :: verified))
          else
            verifyMessages libraries opts (index + 1) rest
              { counters with
                skippedVerify := counters.skippedVerify + 1 }

/-- The snapshot entry of a verified message. -/
def VerifiedEntry.snapshotEntry
    (entry : VerifiedEntry)
    (messageId : Bytes32) : BatchMessageSnapshotEntry where
  sender := entry.message.sender
  nonce := entry.message.nonce
  messageId := messageId
  messageIndexWithinBatch := entry.indexWithinBatch
  messageHash := entry.messageHash

/-- The message row of a verified message. -/
def VerifiedEntry.messageRow
    (opts : ProcessBatchOptions)
    (entry : VerifiedEntry)
    (messageId : Bytes32) : MessageRow where
  messageId := some messageId
  sender := entry.message.sender
  nonce := entry.message.nonce
  contentTag := opts.event.contentTag
  contents := entry.message.contents
  signature := entry.signature
  messageHash := entry.messageHash
  status := .confirmed
  batchRef := some opts.event.txHash
  chainId := some opts.chainId
  ingestedAt := none
  ingestSeq := none
  blockNumber := some opts.event.blockNumber
  txIndex := some opts.event.txIndex
  messageIndexWithinBatch := some entry.indexWithinBatch

/-- The message id of a verified message; `none` where the source throws. -/
def VerifiedEntry.messageId?
    (libraries : ReaderLibraries)
    (opts : ProcessBatchOptions)
    (entry : VerifiedEntry) : Option Bytes32 :=
  computeMessageId libraries.crypto.keccak256 entry.message.sender
    opts.event.contentTag entry.message.nonce opts.event.versionedHash

def VerifiedEntry.toSnapshotEntry
    (libraries : ReaderLibraries)
    (opts : ProcessBatchOptions)
    (entry : VerifiedEntry) : Option BatchMessageSnapshotEntry :=
  (entry.messageId? libraries opts).map entry.snapshotEntry

def VerifiedEntry.toMessageRow
    (libraries : ReaderLibraries)
    (opts : ProcessBatchOptions)
    (entry : VerifiedEntry) : Option MessageRow :=
  (entry.messageId? libraries opts).map (entry.messageRow opts)

/-- The write loop of the store transaction: a conflict is counted and
skipped, any other error rolls the transaction back. -/
def observeMessages
    (libraries : ReaderLibraries)
    (opts : ProcessBatchOptions) :
    List VerifiedEntry → Store → ReaderCounters → Nat →
      ReaderCounters × Except ProcessBatchError (Store × Nat)
  | [], store, counters, written => (counters, .ok (store, written))
  | entry :: rest, store, counters, written =>
      match entry.toMessageRow libraries opts with
      | none => (counters, .error .nonceOutOfRange)
      | some row =>
          match store.upsertObserved row with
          | .ok next =>
              observeMessages libraries opts rest next counters
                (written + 1)
          | .error .messageHashConflict =>
              observeMessages libraries opts rest store
                { counters with
                  skippedConflict := counters.skippedConflict + 1 }
                written
          | .error error => (counters, .error (.store error))

/-- `processBatch` once the segment is decoded. -/
def processDecoded
    (libraries : ReaderLibraries)
    (opts : ProcessBatchOptions)
    (store : Store)
    (counters : ReaderCounters)
    (decoded : DecodedBatch) :
    ReaderCounters × Except ProcessBatchError (Store × ProcessBatchResult) :=
  match verifyMessages libraries opts 0
      (decoded.messages.zip decoded.signatures) counters with
  | (counted, .error error) => (counted, .error error)
  | (counted, .ok verified) =>
      match verified.mapM (VerifiedEntry.toSnapshotEntry libraries opts) with
      | none => (counted, .error .nonceOutOfRange)
      | some snapshot =>
          match observeMessages libraries opts verified
              (store.upsertBatch
                { opts.baseBatch with messageSnapshot := snapshot })
              counted 0 with
          | (observed, .error error) => (observed, .error error)
          | (observed, .ok (next, written)) =>
              ({ observed with decoded := observed.decoded + written },
                .ok (next, opts.result .decoded written))

/-- `processBatch`: the counters it leaves, and its result with the store it
leaves or the error it throws. -/
def processBatch
    (libraries : ReaderLibraries)
    (opts : ProcessBatchOptions)
    (store : Store)
    (counters : ReaderCounters) :
    ReaderCounters × Except ProcessBatchError (Store × ProcessBatchResult) :=
  let startFE := opts.event.startFE.getD 0
  let endFE := opts.event.endFE.getD FIELD_ELEMENTS_PER_BLOB
  if (validateSegmentRange startFE endFE).isSome then
    ({ counters with skippedRange := counters.skippedRange + 1 },
      .ok (store, opts.result .range_rejected 0))
  else
    match opts.fetchBlob with
    | none =>
        ({ counters with undecodable := counters.undecodable + 1 },
          .ok (store.upsertBatch opts.baseBatch,
            opts.result .unreachable 0))
    | some blobBytes =>
        match extractSegmentBytes blobBytes startFE endFE with
        | .error error => (counters, .error (.extract error))
        | .ok usableBytes =>
            match decode libraries.decompress opts.event.decoder
                usableBytes (opts.decodeAnswer usableBytes) with
            | .error _ =>
                ({ counters with
                    skippedDecode := counters.skippedDecode + 1 },
                  .ok (store.upsertBatch opts.baseBatch,
                    opts.result .decode_failed 0))
            | .ok decoded =>
                processDecoded libraries opts store counters decoded

/-- A batch is unreachable only where the blob sources have no blob. -/
theorem fetchBlob_of_unreachable
    {libraries : ReaderLibraries}
    {opts : ProcessBatchOptions}
    {store next : Store}
    {counters counted : ReaderCounters}
    {result : ProcessBatchResult}
    (returned :
      processBatch libraries opts store counters =
        (counted, .ok (next, result)))
    (isUnreachable : result.outcome = .unreachable) :
    opts.fetchBlob = none := by
  unfold processBatch at returned
  simp only at returned
  split at returned
  · cases returned
    cases isUnreachable
  · cases fetched : opts.fetchBlob with
    | none =>
        rfl
    | some blobBytes =>
        simp only [fetched] at returned
        split at returned
        · cases returned
        · split at returned
          · cases returned
            cases isUnreachable
          · unfold processDecoded at returned
            repeat' split at returned
            all_goals cases returned
            cases isUnreachable

/-- The messages of a batch the Reader verifies; `none` where it writes
nothing at all. -/
def readSegment
    (libraries : ReaderLibraries)
    (opts : ProcessBatchOptions) : Option (List VerifiedEntry) :=
  let startFE := opts.event.startFE.getD 0
  let endFE := opts.event.endFE.getD FIELD_ELEMENTS_PER_BLOB
  if (validateSegmentRange startFE endFE).isSome then none
  else
    match opts.fetchBlob with
    | none => some []
    | some blobBytes =>
        match extractSegmentBytes blobBytes startFE endFE with
        | .error _ => none
        | .ok usableBytes =>
            match decode libraries.decompress opts.event.decoder
                usableBytes (opts.decodeAnswer usableBytes) with
            | .error _ => some []
            | .ok decoded =>
                (verifyMessages libraries opts 0
                  (decoded.messages.zip decoded.signatures)
                  emptyCounters).2.toOption

/-- The batch row of a segment with the given verified messages. -/
def ProcessBatchOptions.batchRow
    (libraries : ReaderLibraries)
    (opts : ProcessBatchOptions)
    (verified : List VerifiedEntry) : BatchRow :=
  { opts.baseBatch with
    messageSnapshot :=
      verified.filterMap
        (VerifiedEntry.toSnapshotEntry libraries opts) }

/-- The message rows of a segment with the given verified messages. -/
def ProcessBatchOptions.messageRows
    (libraries : ReaderLibraries)
    (opts : ProcessBatchOptions)
    (verified : List VerifiedEntry) : List MessageRow :=
  verified.filterMap (VerifiedEntry.toMessageRow libraries opts)

/-- What the verify loop guarantees of a message it keeps. -/
structure VerifiedEntry.Valid
    (libraries : ReaderLibraries)
    (opts : ProcessBatchOptions)
    (entry : VerifiedEntry) : Prop where
  hash :
    computeMessageHash libraries.crypto.keccak256 entry.message.sender
      opts.event.contentTag entry.message.nonce
      entry.message.contents = some entry.messageHash
  verified :
    verifyMessage libraries.crypto opts.event.signatureRegistry
      entry.message opts.event.contentTag entry.signature opts.chainId
      (opts.verifyAnswer entry.indexWithinBatch) = true

theorem VerifiedEntry.Valid.nonce
    {libraries : ReaderLibraries}
    {opts : ProcessBatchOptions}
    {entry : VerifiedEntry}
    (valid : entry.Valid libraries opts) :
    entry.message.nonce ≤ MAX_NONCE :=
  nonce_of_computeMessageHash valid.hash

/-- Every message the verify loop keeps is valid. -/
theorem verifyMessages_valid
    {libraries : ReaderLibraries}
    {opts : ProcessBatchOptions}
    {index : Nat}
    {decoded : List (BAMMessage × Bytes)}
    {counters : ReaderCounters}
    {verified : List VerifiedEntry}
    (kept :
      (verifyMessages libraries opts index decoded counters).2 =
        .ok verified) :
    ∀ entry ∈ verified, entry.Valid libraries opts := by
  induction decoded generalizing index counters verified with
  | nil =>
      cases kept
      simp
  | cons first rest inductionHypothesis =>
      obtain ⟨message, signature⟩ := first
      rw [verifyMessages] at kept
      split at kept
      · cases kept
      rename_i messageHash hashed
      split at kept
      · rename_i accepted
        split at kept
        · cases kept
        · rename_i after later verifiedRest
          cases kept
          intro entry member
          rcases List.mem_cons.mp member with isFirst | inRest
          · subst isFirst
            exact ⟨hashed, accepted⟩
          · exact inductionHypothesis
              (congrArg Prod.snd verifiedRest) entry inRest
      · exact inductionHypothesis kept

/-- A message the verify loop keeps stands at its index in the batch. -/
theorem verifyMessages_indexed
    {libraries : ReaderLibraries}
    {opts : ProcessBatchOptions}
    {index : Nat}
    {decoded : List (BAMMessage × Bytes)}
    {counters : ReaderCounters}
    {verified : List VerifiedEntry}
    (kept :
      (verifyMessages libraries opts index decoded counters).2 =
        .ok verified) :
    ∀ entry ∈ verified, ∃ position,
      entry.indexWithinBatch = index + position ∧
        decoded[position]? = some (entry.message, entry.signature) := by
  induction decoded generalizing index counters verified with
  | nil =>
      cases kept
      simp
  | cons first rest inductionHypothesis =>
      obtain ⟨message, signature⟩ := first
      rw [verifyMessages] at kept
      split at kept
      · cases kept
      split at kept
      · split at kept
        · cases kept
        · rename_i after later verifiedRest
          cases kept
          intro entry member
          rcases List.mem_cons.mp member with isFirst | inRest
          · subst isFirst
            exact ⟨0, rfl, rfl⟩
          · obtain ⟨position, isIndex, isAt⟩ :=
              inductionHypothesis (congrArg Prod.snd verifiedRest) entry
                inRest
            exact ⟨position + 1, by omega, isAt⟩
      · intro entry member
        obtain ⟨position, isIndex, isAt⟩ :=
          inductionHypothesis kept entry member
        exact ⟨position + 1, by omega, isAt⟩

/-- Which messages the verify loop keeps does not depend on the counters. -/
theorem verifyMessages_counters
    (libraries : ReaderLibraries)
    (opts : ProcessBatchOptions)
    (index : Nat)
    (decoded : List (BAMMessage × Bytes))
    (first second : ReaderCounters) :
    (verifyMessages libraries opts index decoded first).2 =
      (verifyMessages libraries opts index decoded second).2 := by
  induction decoded generalizing index first second with
  | nil =>
      rfl
  | cons head rest inductionHypothesis =>
      obtain ⟨message, signature⟩ := head
      simp only [verifyMessages]
      split
      · rfl
      split
      · have same := inductionHypothesis (index + 1) first second
        revert same
        cases verifyMessages libraries opts (index + 1) rest first with
        | mk _ firstResult =>
        cases verifyMessages libraries opts (index + 1) rest second with
        | mk _ secondResult =>
        rintro rfl
        cases firstResult <;> rfl
      · exact inductionHypothesis (index + 1) _ _

/-- A valid message has a message id. -/
theorem VerifiedEntry.Valid.messageId
    {libraries : ReaderLibraries}
    {opts : ProcessBatchOptions}
    {entry : VerifiedEntry}
    (valid : entry.Valid libraries opts) :
    ∃ messageId, entry.messageId? libraries opts = some messageId := by
  unfold VerifiedEntry.messageId? computeMessageId
  rw [if_neg (Nat.not_lt.mpr valid.nonce)]
  exact ⟨_, rfl⟩

/-- A valid message has a row. -/
theorem VerifiedEntry.Valid.row
    {libraries : ReaderLibraries}
    {opts : ProcessBatchOptions}
    {entry : VerifiedEntry}
    (valid : entry.Valid libraries opts) :
    ∃ row, entry.toMessageRow libraries opts = some row ∧
      row.nonce ≤ MAX_NONCE := by
  obtain ⟨messageId, identified⟩ := valid.messageId
  rw [VerifiedEntry.toMessageRow, identified]
  exact ⟨_, rfl, valid.nonce⟩

/-- The store refuses the row of a valid message only for a conflict. -/
theorem conflict_of_upsertObserved
    {store : Store}
    {row : MessageRow}
    {error : StoreError}
    (inRange : row.nonce ≤ MAX_NONCE)
    (refused : store.upsertObserved row = .error error) :
    error = .messageHashConflict := by
  unfold Store.upsertObserved at refused
  rw [if_pos inRange] at refused
  split at refused
  · cases refused
  split at refused
  · cases refused
    rfl
  split at refused <;> cases refused

/-- A `mapM` that meets no `none` is a `filterMap`. -/
theorem mapM_eq_filterMap
    {α β : Type}
    {f : α → Option β}
    {items : List α}
    (total : ∀ item ∈ items, ∃ image, f item = some image) :
    items.mapM f = some (items.filterMap f) := by
  induction items with
  | nil =>
      rfl
  | cons first rest inductionHypothesis =>
      obtain ⟨image, mapped⟩ := total first List.mem_cons_self
      rw [List.mapM_cons, mapped, List.filterMap_cons, mapped,
        inductionHypothesis fun item member =>
          total item (List.mem_cons_of_mem first member)]
      rfl

/-- The write loop stores the rows of valid messages one after the other. -/
theorem observeMessages_valid
    {libraries : ReaderLibraries}
    {opts : ProcessBatchOptions}
    {verified : List VerifiedEntry}
    (valid : ∀ entry ∈ verified, entry.Valid libraries opts)
    (store : Store)
    (counters : ReaderCounters)
    (written : Nat) :
    ∃ after total,
      observeMessages libraries opts verified store counters written =
        (after, .ok
          ((opts.messageRows libraries verified).foldl
            Store.observe store, total)) := by
  induction verified generalizing store counters written with
  | nil =>
      exact ⟨_, _, rfl⟩
  | cons entry rest inductionHypothesis =>
      have entryValid := valid entry List.mem_cons_self
      have restValid : ∀ other ∈ rest, other.Valid libraries opts :=
        fun other member =>
          valid other (List.mem_cons_of_mem entry member)
      obtain ⟨row, isRow, inRange⟩ := entryValid.row
      rw [observeMessages, isRow, ProcessBatchOptions.messageRows,
        List.filterMap_cons, isRow]
      dsimp only [List.foldl_cons]
      cases observed : store.upsertObserved row with
      | ok next =>
          have stored : store.observe row = next := by
            rw [Store.observe, observed]
          rw [stored]
          exact inductionHypothesis restValid next _ _
      | error error =>
          have unchanged : store.observe row = store := by
            rw [Store.observe, observed]
          have isConflict := conflict_of_upsertObserved inRange observed
          subst isConflict
          rw [unchanged]
          exact inductionHypothesis restValid store _ _

/-- What `processBatch` leaves in the store: nothing new where the segment is
rejected, and otherwise the batch with its verified messages. -/
theorem processBatch_store
    (libraries : ReaderLibraries)
    (opts : ProcessBatchOptions)
    (store : Store)
    (counters : ReaderCounters) :
    match readSegment libraries opts with
    | none =>
        ∀ next result,
          (processBatch libraries opts store counters).2 =
            .ok (next, result) → next = store
    | some verified =>
        (∀ entry ∈ verified, entry.Valid libraries opts) ∧
          ∃ result,
            (processBatch libraries opts store counters).2 =
              .ok (store.recordBatch
                (opts.batchRow libraries verified)
                (opts.messageRows libraries verified), result) := by
  unfold readSegment processBatch
  dsimp only
  split
  · rename_i noWrite
    split at noWrite
    · rename_i rejected
      rw [if_pos rejected]
      intro next result returned
      cases returned
      rfl
    rename_i inRange
    rw [if_neg inRange]
    split at noWrite
    · cases noWrite
    rename_i blobBytes fetched
    split at noWrite
    · simp
    rename_i usableBytes extracted
    split at noWrite
    · cases noWrite
    rename_i decoded isDecoded
    have throws :
        ∃ error,
          (verifyMessages libraries opts 0
            (decoded.messages.zip decoded.signatures)
            counters).2 = .error error := by
      rw [verifyMessages_counters libraries opts 0 _ counters
        emptyCounters]
      cases kept :
          (verifyMessages libraries opts 0
            (decoded.messages.zip decoded.signatures)
            emptyCounters).2 with
      | error error =>
          exact ⟨error, rfl⟩
      | ok verified =>
          rw [kept] at noWrite
          cases noWrite
    obtain ⟨error, throws⟩ := throws
    intro next result returned
    simp only [processDecoded] at returned
    split at returned
    · cases returned
    · rename_i counted verified kept
      rw [kept] at throws
      cases throws
  · rename_i verified isRead
    split at isRead
    · cases isRead
    rename_i inRange
    rw [if_neg inRange]
    split at isRead
    · cases isRead
      exact ⟨by simp, _, rfl⟩
    rename_i blobBytes fetched
    split at isRead
    · cases isRead
    rename_i usableBytes extracted
    split at isRead
    · cases isRead
      exact ⟨by simp, _, rfl⟩
    rename_i decoded isDecoded
    have kept :
        (verifyMessages libraries opts 0
          (decoded.messages.zip decoded.signatures)
          counters).2 = .ok verified := by
      rw [verifyMessages_counters libraries opts 0 _ counters
        emptyCounters]
      revert isRead
      cases (verifyMessages libraries opts 0
        (decoded.messages.zip decoded.signatures) emptyCounters).2 with
      | error error =>
          intro isRead
          cases isRead
      | ok other =>
          intro isRead
          cases isRead
          rfl
    have valid := verifyMessages_valid kept
    refine ⟨valid, ?_⟩
    have snapshotted :
        verified.mapM (VerifiedEntry.toSnapshotEntry libraries opts) =
          some (verified.filterMap
            (VerifiedEntry.toSnapshotEntry libraries opts)) := by
      apply mapM_eq_filterMap
      intro entry member
      obtain ⟨messageId, identified⟩ := (valid entry member).messageId
      rw [VerifiedEntry.toSnapshotEntry, identified]
      exact ⟨_, rfl⟩
    cases verification :
        verifyMessages libraries opts 0
          (decoded.messages.zip decoded.signatures) counters with
    | mk counted keptResult =>
    rw [verification] at kept
    cases kept
    obtain ⟨after, total, observed⟩ :=
      observeMessages_valid valid
        (store.upsertBatch (opts.batchRow libraries verified))
        counted 0
    simp only [processDecoded, verification, snapshotted]
    rw [ProcessBatchOptions.batchRow] at observed
    rw [observed]
    exact ⟨_, rfl⟩

/-- A blob that begins with an uncompressed batch is verified as the batch. -/
theorem readSegment_payloadBlob
    {libraries : ReaderLibraries}
    {opts : ProcessBatchOptions}
    {messages : List BAMMessage}
    {signatures : List Bytes}
    {encoded : EncodedBatch}
    (isEncoded : encodeBatch messages signatures .none = .ok encoded)
    (short : estimateBatchSize messages ≤ MAX_UINT32)
    (headed : HEADER_SIZE ≤ encoded.data.length)
    (plain : encoded.data.getD 1 0 ≠ CODEC_ZSTD)
    (isBlob : opts.fetchBlob = some (payloadBlob encoded.data))
    (isStart : opts.event.startFE.getD 0 = 0)
    {endFE : Nat}
    (isEnd :
      opts.event.endFE.getD FIELD_ELEMENTS_PER_BLOB = endFE)
    (positive : 0 < endFE)
    (holds : feCountForPayload encoded.data.length ≤ endFE)
    (inside : endFE ≤ FIELD_ELEMENTS_PER_BLOB)
    (zeroDecoder : opts.event.decoder = 0) :
    readSegment libraries opts =
      (verifyMessages libraries opts 0 (messages.zip signatures)
        emptyCounters).2.toOption := by
  obtain ⟨padding, extracted⟩ :=
    extractSegmentBytes_payloadBlob positive holds inside
  have decoded :=
    decodeBatch_encodeBatch libraries.decompress isEncoded short padding
  have isPlain :
      ¬(encoded.data ++ padding).getD 1 0 = CODEC_ZSTD := by
    rw [List.getD_append _ _ _ _
      (Nat.lt_of_lt_of_le (by decide) headed)]
    exact plain
  have long : ¬(encoded.data ++ padding).length < HEADER_SIZE := by
    rw [List.length_append]
    exact Nat.not_lt.mpr (Nat.le_add_right_of_le headed)
  have bounded :
      assertZstdWithinBound (encoded.data ++ padding) = .ok () := by
    unfold assertZstdWithinBound
    rw [if_neg long, if_pos isPlain]
  have inRange : validateSegmentRange 0 endFE = none := by
    unfold validateSegmentRange
    rw [if_neg (Nat.not_lt.mpr inside), if_neg (Nat.not_le.mpr positive)]
  simp only [readSegment, isBlob, isStart, isEnd, zeroDecoder, inRange,
    extracted, decode, if_true, bounded, decoded]
  rfl

end Bam
