import Bam.Poster.Surfaces
import Bam.System.NonceTracker

namespace Bam

/-!
# The nonce surface beside ingest

`getNextNonce` reads the tracker alone.  Ingest also seeds the tracker from the
message rows and inserts under their primary key, so it follows the answer
exactly where the message rows leave the answered slot free.
-/

/-- The message rows leave the slot the surface answers to a sender free; with
no tracker row, they hold no live row of the sender at all. -/
def Store.AnswersFreeSlot
    (store : Store)
    (sender : Address) : Prop :=
  match store.getNonce sender with
  | none =>
      ∀ row ∈ store.messages.rows, row.sender = sender →
        row.status = .reorged
  | some tracked =>
      ∀ row, store.message? (sender, tracked.lastNonce + 1) = some row →
        row.status = .reorged

/-- A step that submits a message under the nonce the surface answers: the
request is within the rate limit and the size caps, and the pipeline lets the
message through. -/
structure SubmitsNext
    (config : SystemConfig)
    (world : World)
    (event : SystemEvent)
    (raw : RawEnvelope)
    (now : Int)
    (message : DecodedMessage) : Prop where
  submits : event = .shared (.poster (.ingest raw true now))
  size : raw.byteLength ≤ config.ingest.maxMessageSizeBytes
  spelled : World.requestedMessage config.keccak256 raw = some message
  admissible : Admissible config.keccak256 config.ingest message
  next : message.nonce = getNextNonce world.store message.sender

/-- Ingest accepts the message as a new pending row. -/
structure AcceptedAsPending
    (config : SystemConfig)
    (world : World)
    (raw : RawEnvelope)
    (now : Int)
    (message : DecodedMessage) : Prop where
  answer :
    (ingest config.keccak256 config.ingest world.store raw true now).2 =
      .ok (.accepted message.messageHash)
  vacant :
    ∀ row, world.store.message? message.key = some row →
      row.status = .reorged
  inserted :
    ∃ seq,
      (world.ingest config raw true now).store.message? message.key =
        some (pendingRowOf config.ingest message now seq).toMessageRow

/-- There is nothing to seed from exactly where a sender has no live row. -/
theorem Store.getMaxNonReorgedNonce_eq_none_iff
    {store : Store}
    {sender : Address} :
    store.getMaxNonReorgedNonce sender = none ↔
      ∀ row ∈ store.messages.rows, row.sender = sender →
        row.status = .reorged := by
  rw [Store.getMaxNonReorgedNonce, Option.map_eq_none_iff,
    List.head?_eq_none_iff, List.eq_nil_iff_forall_not_mem]
  simp

/-- A free answered slot holds a reorged row at most. -/
theorem Store.AnswersFreeSlot.vacant
    {store : Store}
    {sender : Address}
    {row : MessageRow}
    (free : store.AnswersFreeSlot sender)
    (found :
      store.message? (sender, getNextNonce store sender) = some row) :
    row.status = .reorged := by
  unfold AnswersFreeSlot at free
  unfold getNextNonce at found
  cases tracked : store.getNonce sender with
  | none =>
      simp only [tracked] at free found
      exact free row (Table.mem_of_get? found)
        (congrArg Prod.fst (Store.key_of_message? found))
  | some tracker =>
      simp only [tracked] at free found
      exact free row found

/-- Over a free answered slot, monotonicity lets the answered nonce through and
seeds nothing. -/
theorem Store.AnswersFreeSlot.checkMonotonicity
    {store : Store}
    {sender : Address}
    (free : store.AnswersFreeSlot sender)
    (messageHash : Bytes32) :
    checkMonotonicity store sender (getNextNonce store sender)
        messageHash =
      .ok (store, .accept) := by
  unfold AnswersFreeSlot at free
  unfold getNextNonce Bam.checkMonotonicity
  cases tracked : store.getNonce sender with
  | none =>
      simp only [tracked] at free ⊢
      rw [getMaxNonReorgedNonce_eq_none_iff.mpr free]
      rfl
  | some tracker =>
      simp [decideMonotonicity]

/-- Where the answered slot is not free, its own slot is taken or the tracker
would be seeded from a live row. -/
theorem Store.taken_of_not_answersFreeSlot
    {store : Store}
    {sender : Address}
    (taken : ¬ store.AnswersFreeSlot sender) :
    (∃ row,
        store.message? (sender, getNextNonce store sender) = some row ∧
          row.status ≠ .reorged) ∨
      ∃ seed,
        (store.getNonce sender).or
            (store.getMaxNonReorgedNonce sender) = some seed ∧
          getNextNonce store sender ≤ seed.lastNonce := by
  unfold AnswersFreeSlot at taken
  unfold getNextNonce
  cases tracked : store.getNonce sender with
  | none =>
      simp only [tracked] at taken ⊢
      rw [← getMaxNonReorgedNonce_eq_none_iff] at taken
      obtain ⟨seed, isSeed⟩ := Option.ne_none_iff_exists'.mp taken
      exact .inr ⟨seed, isSeed, Nat.zero_le _⟩
  | some tracker =>
      simp only [tracked, not_forall] at taken ⊢
      obtain ⟨row, found, live⟩ := taken
      exact .inl ⟨row, found, live⟩

/-- `insertPending` takes a vacant slot. -/
theorem Store.insertPending_vacant
    {store : Store}
    {row : StoreTxnPendingRow}
    (inRange : row.nonce ≤ MAX_NONCE)
    (vacant :
      ∀ existing, store.message? (row.sender, row.nonce) = some existing →
        existing.status = .reorged) :
    store.insertPending row = .ok (store.putMessage row.toMessageRow) := by
  rw [insertPending, if_pos inRange]
  cases found : store.message? (row.sender, row.nonce) with
  | none =>
      rfl
  | some existing =>
      exact if_pos (vacant existing found)

/-- A transaction that monotonicity lets through inserts a valid message into a
vacant slot. -/
theorem ingestTxn_of_accept
    {opts : IngestPipelineOptions}
    {store : Store}
    {decoded : DecodedMessage}
    {now : Int}
    (checked :
      checkMonotonicity store decoded.sender decoded.nonce
        decoded.messageHash = .ok (store, .accept))
    (validated : opts.validate decoded = .ok ())
    (inRange : decoded.nonce ≤ MAX_NONCE)
    (vacant :
      ∀ row, store.message? decoded.key = some row →
        row.status = .reorged) :
    ∃ next,
      ingestTxn opts store decoded now =
          .ok (next, .accepted decoded.messageHash) ∧
        ∃ seq,
          next.message? decoded.key =
            some (pendingRowOf opts decoded now seq).toMessageRow := by
  rw [ingestTxn, checked]
  dsimp only
  rw [validated, Store.setNonce]
  dsimp only
  rw [if_pos inRange]
  dsimp only
  rw [Store.insertPending_vacant inRange vacant]
  exact ⟨_, rfl, _, Table.get?_put_self _ _⟩

section Submission

variable {config : SystemConfig}
variable {world : World}
variable {event : SystemEvent}
variable {raw : RawEnvelope}
variable {now : Int}
variable {message : DecodedMessage}

/-- A request the gates let through opens its transaction. -/
theorem SubmitsNext.admitted
    (submits : SubmitsNext config world event raw now message) :
    admittedMessage config.keccak256 config.ingest raw true =
      some message := by
  obtain ⟨-, size, spelled, admissible, -⟩ := submits
  obtain ⟨envelope, parsed, hashed⟩ := Option.bind_eq_some_iff.mp spelled
  obtain ⟨messageHash, isHash, rfl⟩ := Option.map_eq_some_iff.mp hashed
  rw [admittedMessage, if_neg (Nat.not_lt.mpr size), parsed]
  dsimp only
  rw [if_neg (Nat.not_lt.mpr admissible.contents),
    if_neg (not_not.mpr admissible.allowlisted), isHash]
  rfl

/-- Its answer and its store are those of the transaction. -/
theorem SubmitsNext.answered
    (submits : SubmitsNext config world event raw now message) :
    ingest config.keccak256 config.ingest world.store raw true now =
      afterIngestTxn world.store
        (ingestTxn config.ingest world.store message now) := by
  have answered := ingest_eq config.keccak256 config.ingest raw true
  rw [submits.admitted] at answered
  exact answered world.store now

/-- A message under the answered nonce is accepted as a new pending row exactly
if the message rows leave that slot free. -/
theorem SubmitsNext.accepted_iff
    (submits : SubmitsNext config world event raw now message) :
    AcceptedAsPending config world raw now message ↔
      world.store.AnswersFreeSlot message.sender := by
  have isKey :
      message.key =
        (message.sender, getNextNonce world.store message.sender) :=
    congrArg (Prod.mk message.sender) submits.next
  have isStore :
      (world.ingest config raw true now).store =
        (afterIngestTxn world.store
          (ingestTxn config.ingest world.store message now)).1 :=
    congrArg Prod.fst submits.answered
  constructor
  · intro accepted
    by_contra notFree
    obtain ⟨seq, inserted⟩ := accepted.inserted
    rcases Store.taken_of_not_answersFreeSlot notFree with
      ⟨row, found, live⟩ | ⟨seed, isSeed, notAhead⟩
    · rw [← isKey] at found
      exact live (accepted.vacant row found)
    · have unchanged :
          (world.ingest config raw true now).store.message? message.key =
            world.store.message? message.key := by
        rw [isStore]
        cases ended : ingestTxn config.ingest world.store message now with
        | error error =>
            cases error <;> rfl
        | ok answer =>
            rcases (ingestTxn_ok ended).2 with
              ⟨sameMessages, -⟩ | ⟨-, -, -, -, -, ahead⟩
            · exact congrArg (fun table => table.get? message.key)
                sameMessages
            · have isAhead := ahead seed isSeed
              rw [submits.next] at isAhead
              exact absurd isAhead (Nat.not_lt.mpr notAhead)
      rw [unchanged] at inserted
      cases accepted.vacant _ inserted
  · intro free
    obtain ⟨next, committed, inserted⟩ :=
      @ingestTxn_of_accept config.ingest world.store message now
        (submits.next ▸ free.checkMonotonicity message.messageHash)
        submits.admissible.validated submits.admissible.nonce
        (fun row found => free.vacant (isKey ▸ found))
    rw [committed] at isStore
    exact
      { answer := by rw [submits.answered, committed]; rfl
        vacant := fun row found => free.vacant (isKey ▸ found)
        inserted := isStore ▸ inserted }

end Submission

/-- Every message submitted under the answered nonce is accepted as a new
pending row. -/
def acceptsNext
    (config : SystemConfig)
    (world : World)
    (event : SystemEvent) : Prop :=
  ∀ raw now message,
    SubmitsNext config world event raw now message →
    AcceptedAsPending config world raw now message

/-- Over runs of Poster and Reader: the answered nonces are accepted exactly
when every answer meets a free slot. -/
theorem nonceSurface_agrees_iff
    (config : SystemConfig)
    (world : World)
    (events : List SystemEvent) :
    Runs.AllSteps (systemStep config) (acceptsNext config) world events ↔
      Runs.AllSteps (systemStep config)
        (fun before event =>
          ∀ raw now message,
            SubmitsNext config before event raw now message →
            before.store.AnswersFreeSlot message.sender)
        world events := by
  constructor
  · intro all
    refine all.mono ?_
    intro before event accepts raw now message submits
    exact submits.accepted_iff.mp (accepts raw now message submits)
  · intro all
    refine all.mono ?_
    intro before event free raw now message submits
    exact submits.accepted_iff.mpr (free raw now message submits)

/-- A request of the sampled sender. -/
def nonceRequest (nonce : Nat) : RawEnvelope where
  byteLength := 200
  fields :=
    some {
      contentTag := 5
      sender := 7
      nonce := nonce
      contents := [9]
      signature := List.replicate 65 0 }

/-- The message the sampled request spells. -/
def nonceSubmission (nonce : Nat) : DecodedMessage where
  sender := 7
  nonce := nonce
  contents := [9]
  contentTag := 5
  signature := List.replicate 65 0
  messageHash :=
    (computeMessageHash sampleConfig.keccak256 7 5 nonce [9]).getD 0
  ingestedAt := none

/-- A run that ends where the surface answers the nonce of a sampled request
and ingest rejects it. -/
theorem not_acceptsNext_of_rejected
    {events : List SystemEvent}
    {nonce : Nat}
    {reason : PosterRejection}
    (spelled :
      World.requestedMessage sampleConfig.keccak256 (nonceRequest nonce) =
        some (nonceSubmission nonce))
    (hashed :
      computeMessageHash sampleConfig.keccak256 7 5 nonce [9] =
        some (nonceSubmission nonce).messageHash)
    (rejected :
      (Runs.exec? (systemStep sampleConfig) World.initial events).map
          (fun world =>
            (getNextNonce world.store 7,
              (ingest sampleConfig.keccak256 sampleConfig.ingest
                world.store (nonceRequest nonce) true 0).2)) =
        some (nonce, .ok (.rejected reason))) :
    ¬ Runs.AllSteps (systemStep sampleConfig) (acceptsNext sampleConfig)
      World.initial
      (events ++
        [.shared (.poster (.ingest (nonceRequest nonce) true 0))]) := by
  intro all
  obtain ⟨world, executed, answers⟩ := Option.map_eq_some_iff.mp rejected
  obtain ⟨isNext, isRejected⟩ := Prod.mk.inj answers
  have accepted :=
    (all.split executed).2.1 (nonceRequest nonce) 0
      (nonceSubmission nonce)
      { submits := rfl
        size := (by decide : 200 ≤ 1000)
        spelled := spelled
        admissible :=
          { allowlisted := List.mem_cons_self
            signature := List.length_replicate
            contents := (by decide : 1 ≤ 100)
            nonce := nonce_of_computeMessageHash hashed
            hash := hashed
            validated := rfl }
        next := isNext.symm }
  have answered := accepted.answer
  rw [isRejected] at answered
  cases answered

/-- The batch of a transaction that carries the second message of the sampled
sender. -/
def secondMessageBatch : ProcessBatchOptions :=
  { sampleBatch 1 [3] with
    decodeAnswer := fun _ =>
      some ([{ sender := 7, nonce := 1, contents := [3] }], [1]) }

/-- After a Reader's backfill the surface answers zero, which is stale; after
one accepted message and a Reader ahead of the tracker it answers a nonce whose
slot is taken. -/
theorem nonceSurface_disagrees :
    ¬ Runs.AllSteps (systemStep sampleConfig) (acceptsNext sampleConfig)
        World.initial
        [.processBatch (sampleBatch 1 [3]),
          .shared (.poster (.ingest (nonceRequest 0) true 0))] ∧
      ¬ Runs.AllSteps (systemStep sampleConfig) (acceptsNext sampleConfig)
        World.initial
        [.shared (.poster (.ingest (nonceRequest 0) true 0)),
          .processBatch secondMessageBatch,
          .shared (.poster (.ingest (nonceRequest 1) true 0))] :=
  ⟨@not_acceptsNext_of_rejected [.processBatch (sampleBatch 1 [3])] 0
      .stale_nonce (by decide +kernel) (by decide +kernel)
      (by decide +kernel),
    @not_acceptsNext_of_rejected
      [.shared (.poster (.ingest (nonceRequest 0) true 0)),
        .processBatch secondMessageBatch] 1
      .duplicate (by decide +kernel) (by decide +kernel)
      (by decide +kernel)⟩

end Bam
