import Bam.Poster.Policy
import Bam.Sdk.Message
import Bam.Store.Nonces

namespace Bam

/-!
# The ingest pipeline

`IngestPipeline.ingest`: size, envelope, allowlist, hash, rate limit, and then
monotonicity, validator and insert in one transaction.  JSON parsing and the
sliding window of the rate limiter stay outside: a request carries the fields
its JSON spells, and the limiter's decision is an input.
-/

/-- `BLOB_USABLE_CAPACITY - BATCH_HEADER_FIXED_SIZE - MESSAGE_HEADER_SIZE -
BATCH_FRAMING_SLACK`. -/
def DEFAULT_MAX_MESSAGE_SIZE_BYTES : Nat :=
  126976 - 95 - 33 - 4096

/-- `DEFAULT_MAX_MESSAGE_SIZE_BYTES - 1024`. -/
def DEFAULT_MAX_CONTENTS_SIZE_BYTES : Nat :=
  DEFAULT_MAX_MESSAGE_SIZE_BYTES - 1024

/-- The rejections the pipeline itself returns. -/
inductive PosterRejection where
  | unknown_tag
  | message_too_large
  | malformed
  | bad_signature
  | stale_nonce
  | duplicate
  | rate_limited
  deriving Repr, DecidableEq

structure MessageEnvelope where
  contentTag : Bytes32
  sender : Address
  nonce : Nat
  contents : Bytes
  signature : Bytes
  deriving Repr, DecidableEq

/-- The raw body of a request: its length, and the fields it spells when it is
JSON of the expected shape. -/
structure RawEnvelope where
  byteLength : Nat
  fields : Option MessageEnvelope
  deriving Repr, DecidableEq

/-- `parseEnvelope`, behind the JSON and hex parsing. -/
def parseEnvelope (raw : RawEnvelope) : Option MessageEnvelope :=
  raw.fields.filter fun envelope =>
    envelope.signature.length = 65

structure IngestPipelineOptions where
  /-- `validator.validate`; the error is the rejection it returns. -/
  validate : DecodedMessage → Except PosterRejection Unit
  allowlistedTags : List Bytes32
  maxMessageSizeBytes : Nat
  maxContentsSizeBytes : Nat
  chainId : Nat

/-- `SubmitResult`. -/
inductive SubmitResult where
  | accepted (messageHash : Bytes32)
  | rejected (reason : PosterRejection)
  deriving Repr, DecidableEq

inductive MonotonicityOutcome where
  | accept
  | no_op (existingMessageHash : Bytes32)
  | reject (reason : PosterRejection)
  deriving Repr, DecidableEq

/-- The decision of `checkMonotonicity` over the sender's tracker row. -/
def decideMonotonicity
    (nonce : Nat)
    (messageHash : Bytes32) :
    Option NonceTrackerRow → MonotonicityOutcome
  | none => .accept
  | some row =>
      if row.lastNonce < nonce then .accept
      else if nonce = row.lastNonce then
        if messageHash = row.lastMessageHash then
          .no_op row.lastMessageHash
        else .reject .stale_nonce
      else .reject .stale_nonce

/-- `checkMonotonicity`, with the lazy seeding of the tracker. -/
def checkMonotonicity
    (store : Store)
    (sender : Address)
    (nonce : Nat)
    (messageHash : Bytes32) :
    Except StoreError (Store × MonotonicityOutcome) :=
  match store.getNonce sender with
  | some row =>
      .ok (store, decideMonotonicity nonce messageHash (some row))
  | none =>
      match store.getMaxNonReorgedNonce sender with
      | none => .ok (store, decideMonotonicity nonce messageHash none)
      | some seed =>
          match store.setNonce seed with
          | .error error => .error error
          | .ok seeded =>
              .ok (seeded,
                decideMonotonicity nonce messageHash (some seed))

/-- The row an accepted message is inserted as. -/
def pendingRowOf
    (opts : IngestPipelineOptions)
    (decoded : DecodedMessage)
    (now : Int)
    (seq : Nat) : StoreTxnPendingRow where
  contentTag := decoded.contentTag
  sender := decoded.sender
  nonce := decoded.nonce
  contents := decoded.contents
  signature := decoded.signature
  messageHash := decoded.messageHash
  chainId := opts.chainId
  ingestedAt := now
  ingestSeq := seq

/-- The transaction of `ingest`. -/
def ingestTxn
    (opts : IngestPipelineOptions)
    (store : Store)
    (decoded : DecodedMessage)
    (now : Int) : Except StoreError (Store × SubmitResult) :=
  match checkMonotonicity store decoded.sender decoded.nonce
      decoded.messageHash with
  | .error error => .error error
  | .ok (seeded, .reject reason) => .ok (seeded, .rejected reason)
  | .ok (seeded, .no_op existing) => .ok (seeded, .accepted existing)
  | .ok (seeded, .accept) =>
      match opts.validate decoded with
      | .error reason => .ok (seeded, .rejected reason)
      | .ok () =>
          match seeded.setNonce {
              sender := decoded.sender
              lastNonce := decoded.nonce
              lastMessageHash := decoded.messageHash } with
          | .error error => .error error
          | .ok tracked =>
              let (sequenced, seq) :=
                tracked.nextIngestSeq decoded.contentTag
              match sequenced.insertPending
                  (pendingRowOf opts decoded now seq) with
              | .error error => .error error
              | .ok inserted =>
                  .ok (inserted, .accepted decoded.messageHash)

/-- `ingest`: the store it leaves, and its answer or the error it throws. -/
def ingest
    (keccak256 : Bytes → Bytes32)
    (opts : IngestPipelineOptions)
    (store : Store)
    (raw : RawEnvelope)
    (withinRateLimit : Bool)
    (now : Int) : Store × Except StoreError SubmitResult :=
  if opts.maxMessageSizeBytes < raw.byteLength then
    (store, .ok (.rejected .message_too_large))
  else
    match parseEnvelope raw with
    | none => (store, .ok (.rejected .malformed))
    | some envelope =>
        if opts.maxContentsSizeBytes < envelope.contents.length then
          (store, .ok (.rejected .message_too_large))
        else if envelope.contentTag ∉ opts.allowlistedTags then
          (store, .ok (.rejected .unknown_tag))
        else
          match computeMessageHash keccak256 envelope.sender
              envelope.contentTag envelope.nonce envelope.contents with
          | none => (store, .ok (.rejected .malformed))
          | some messageHash =>
              if !withinRateLimit then
                (store, .ok (.rejected .rate_limited))
              else
                match ingestTxn opts store {
                    sender := envelope.sender
                    nonce := envelope.nonce
                    contents := envelope.contents
                    contentTag := envelope.contentTag
                    signature := envelope.signature
                    messageHash := messageHash
                    ingestedAt := none } now with
                | .ok (next, result) => (next, .ok result)
                | .error (.duplicateMessage _ _) =>
                    (store, .ok (.rejected .duplicate))
                | .error error => (store, .error error)

/-- A message the pipeline lets through: its tag is allowlisted, its signature
has 65 bytes and validates, and its size and nonce are in bounds. -/
structure Admissible
    (keccak256 : Bytes → Bytes32)
    (opts : IngestPipelineOptions)
    (message : DecodedMessage) : Prop where
  allowlisted : message.contentTag ∈ opts.allowlistedTags
  signature : message.signature.length = 65
  contents : message.contents.length ≤ opts.maxContentsSizeBytes
  nonce : message.nonce ≤ MAX_NONCE
  hash :
    computeMessageHash keccak256 message.sender message.contentTag
      message.nonce message.contents = some message.messageHash
  validated : opts.validate message = .ok ()

/-- Seeding and deciding leave messages and batches alone. -/
theorem checkMonotonicity_ok
    {store next : Store}
    {sender : Address}
    {nonce : Nat}
    {messageHash : Bytes32}
    {outcome : MonotonicityOutcome}
    (checked :
      checkMonotonicity store sender nonce messageHash =
        .ok (next, outcome)) :
    next.messages = store.messages ∧
      next.batches = store.batches ∧
      next.tagSeq = store.tagSeq ∧
      outcome =
        decideMonotonicity nonce messageHash
          ((store.getNonce sender).or
            (store.getMaxNonReorgedNonce sender)) ∧
      next.getNonce sender =
        (store.getNonce sender).or
          (store.getMaxNonReorgedNonce sender) ∧
      ∀ other ≠ sender, next.getNonce other = store.getNonce other := by
  unfold checkMonotonicity at checked
  split at checked
  · rename_i row tracked
    cases checked
    simp [tracked]
  · rename_i untracked
    split at checked
    · rename_i noSeed
      cases checked
      simp [untracked, noSeed]
    · rename_i seed isSeed
      split at checked
      · cases checked
      · rename_i seeded set
        cases checked
        obtain ⟨-, rfl⟩ := Store.setNonce_ok set
        have ofSender := (Store.getMaxNonReorgedNonce_some isSeed).1
        refine ⟨rfl, rfl, rfl, by simp [untracked, isSeed], ?_, ?_⟩
        · simp only [Store.getNonce, Table.get?_put, ofSender,
            if_true] at untracked ⊢
          simp [untracked, isSeed]
        · intro other differs
          simp [Store.getNonce, Table.get?_put, ofSender,
            Ne.symm differs]

/-- What the ingest transaction did to messages and batches: nothing, or it
inserted the message as pending into a free or reorged slot. -/
theorem ingestTxn_ok
    {opts : IngestPipelineOptions}
    {store next : Store}
    {decoded : DecodedMessage}
    {now : Int}
    {result : SubmitResult}
    (committed : ingestTxn opts store decoded now = .ok (next, result)) :
    next.batches = store.batches ∧
      ((next.messages = store.messages ∧
          ∀ hash, result = .accepted hash →
            hash = decoded.messageHash ∧
            ∃ row,
              ((store.getNonce decoded.sender).or
                (store.getMaxNonReorgedNonce decoded.sender)) =
                  some row ∧
              row.lastNonce = decoded.nonce ∧
              row.lastMessageHash = decoded.messageHash) ∨
        (opts.validate decoded = .ok () ∧
          result = .accepted decoded.messageHash ∧
          (∃ seq,
            next.messages =
              store.messages.put
                (pendingRowOf opts decoded now seq).toMessageRow) ∧
          decoded.nonce ≤ MAX_NONCE ∧
          (∀ existing,
            store.message? (decoded.sender, decoded.nonce) =
              some existing →
            existing.status = .reorged) ∧
          ∀ row,
            ((store.getNonce decoded.sender).or
              (store.getMaxNonReorgedNonce decoded.sender)) =
                some row →
            row.lastNonce < decoded.nonce)) := by
  unfold ingestTxn at committed
  split at committed
  · cases committed
  · rename_i seeded reason checked
    obtain ⟨sameMessages, sameBatches, -, -, -, -⟩ :=
      checkMonotonicity_ok checked
    cases committed
    exact ⟨sameBatches, .inl ⟨sameMessages, by simp⟩⟩
  · rename_i seeded existing checked
    obtain ⟨sameMessages, sameBatches, -, decided, -, -⟩ :=
      checkMonotonicity_ok checked
    cases committed
    refine ⟨sameBatches, .inl ⟨sameMessages, ?_⟩⟩
    intro hash isHash
    cases isHash
    cases tracked :
        (store.getNonce decoded.sender).or
          (store.getMaxNonReorgedNonce decoded.sender) with
    | none =>
        rw [tracked] at decided
        cases decided
    | some row =>
        rw [tracked, decideMonotonicity] at decided
        split at decided
        · cases decided
        split at decided
        · rename_i sameNonce
          split at decided
          · rename_i sameHash
            cases decided
            exact ⟨sameHash.symm, row, rfl, sameNonce.symm,
              sameHash.symm⟩
          · cases decided
        · cases decided
  · rename_i seeded checked
    obtain ⟨sameMessages, sameBatches, -, decided, -, -⟩ :=
      checkMonotonicity_ok checked
    split at committed
    · rename_i reason invalid
      cases committed
      exact ⟨sameBatches, .inl ⟨sameMessages, by simp⟩⟩
    rename_i valid
    split at committed
    · cases committed
    rename_i tracked set
    cases bumped : tracked.nextIngestSeq decoded.contentTag with
    | mk sequenced seq =>
    rw [bumped] at committed
    dsimp only at committed
    split at committed
    · cases committed
    rename_i inserted isInserted
    cases committed
    obtain ⟨-, isTracked⟩ := Store.setNonce_ok set
    obtain ⟨inRange, isNext, reclaims⟩ :=
      Store.insertPending_ok isInserted
    have sequencedMessages : sequenced.messages = store.messages := by
      rw [← sameMessages]
      rw [isTracked] at bumped
      exact (congrArg (fun bump => bump.1.messages) bumped).symm
    have sequencedBatches : sequenced.batches = store.batches := by
      rw [← sameBatches]
      rw [isTracked] at bumped
      exact (congrArg (fun bump => bump.1.batches) bumped).symm
    refine ⟨?_, .inr ⟨valid, rfl, ⟨seq, ?_⟩, inRange, ?_, ?_⟩⟩
    · rw [isNext]
      exact sequencedBatches
    · rw [isNext, Store.putMessage, sequencedMessages]
    · intro existing found
      apply reclaims existing
      rw [Store.message?, sequencedMessages]
      exact found
    · intro row isTracked
      rw [isTracked, decideMonotonicity] at decided
      split at decided
      · assumption
      split at decided
      · split at decided <;> cases decided
      · cases decided

end Bam
