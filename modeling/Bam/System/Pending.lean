import Bam.Poster.Progress
import Bam.System.Absence
import Bam.System.Slots

namespace Bam

/-!
# Where pending rows come from

Rows become pending by ingest and by the re-enqueue of the Poster's watcher,
which takes them from whatever batch rows the shared store holds.  Every
pending row is one that ingest accepted exactly if the watcher re-enqueues
accepted messages only, and an aggregator tick over such rows does not throw.
-/

/-- The row holds the data of a message. -/
structure MessageRow.Spells
    (row : MessageRow)
    (message : DecodedMessage) : Prop where
  key : row.key = message.key
  contentTag : row.contentTag = message.contentTag
  contents : row.contents = message.contents
  signature : row.signature = message.signature
  messageHash : row.messageHash = message.messageHash

/-- Ingest accepted the message of the row, after all its checks. -/
def World.Accepts
    (config : SystemConfig)
    (world : World)
    (row : MessageRow) : Prop :=
  ∃ message ∈ world.accepted,
    Admissible config.keccak256 config.ingest message ∧
      row.Spells message

def World.PendingAccepted
    (config : SystemConfig)
    (world : World) : Prop :=
  ∀ key row,
    world.store.message? key = some row →
    row.status = .pending →
    world.Accepts config row

/-- No aggregator tick throws on the pools it reads, which are arrays. -/
def World.TicksSafely
    (config : SystemConfig)
    (world : World) : Prop :=
  ∀ pool state now,
    snapshotPools world.store config.aggregator.tags = .ok pool →
    (∀ tag ∈ config.aggregator.tags,
      (pool tag).length ≤ MAX_UINT32) →
    ∃ next pack,
      aggregatorTick config.aggregator state { pool, now } =
        .ok (next, pack)

/-- Pending rows are accepted, and ticks do not throw on them. -/
structure World.PendingSound
    (config : SystemConfig)
    (world : World) : Prop where
  accepted : world.PendingAccepted config
  ticks : world.TicksSafely config

/-- When the Poster's watcher marks a batch, the rows attached to the batch are
accepted. -/
def requeuesAllow
    (config : SystemConfig)
    (world : World) : SystemEvent → Prop
  | .shared (.poster (.watch (.mark _ _))) =>
      ∀ judgement,
        world.posterWatch.bind WatchTick.judged = some judgement →
        ∀ key row,
          world.store.message? key = some row →
          row.AttachedTo judgement.batch →
          world.Accepts config row
  | _ => True

section Steps

variable {config : SystemConfig}
variable {world next : World}

/-- Rows with the same data are accepted together. -/
theorem World.Accepts.of_data
    {row other : MessageRow}
    (accepts : world.Accepts config row)
    (accepted : ∀ message ∈ world.accepted, message ∈ next.accepted)
    (key : other.key = row.key)
    (contentTag : other.contentTag = row.contentTag)
    (contents : other.contents = row.contents)
    (signature : other.signature = row.signature)
    (messageHash : other.messageHash = row.messageHash) :
    next.Accepts config other := by
  obtain ⟨message, member, admissible, spells⟩ := accepts
  exact ⟨message, accepted message member, admissible,
    { key := key.trans spells.key
      contentTag := contentTag.trans spells.contentTag
      contents := contents.trans spells.contents
      signature := signature.trans spells.signature
      messageHash := messageHash.trans spells.messageHash }⟩

/-- Accepted messages stay accepted. -/
theorem accepted_systemStep
    {event : SystemEvent}
    (taken : systemStep config world event = some next)
    {message : DecodedMessage}
    (member : message ∈ world.accepted) :
    message ∈ next.accepted := by
  cases event with
  | shared event =>
      cases event with
      | poster event =>
          cases posterStep_cases taken with
          | quiet same =>
              exact same.accepted ▸ member
          | ingested raw withinRateLimit now =>
              exact accepted_ingest raw withinRateLimit now member
          | prepared read ticked nonempty same =>
              exact same.accepted ▸ member
          | sent found isSent fresh unconfirmed same =>
              exact same.accepted ▸ member
          | phased found leads arrived same =>
              exact same.accepted ▸ member
          | confirmed found included committed =>
              exact member
          | restarted =>
              exact member
          | watched stepped =>
              exact member
          | chained canonical =>
              exact member
      | readerWatch action =>
          obtain ⟨outcome, -, rfl⟩ := readerWatchStep_cases taken
          exact member
  | processBatch opts =>
      obtain ⟨store, -, rfl⟩ := systemStep_processBatch taken
      exact member

/-- A mark of the Poster's watcher re-enqueues the batch it has judged. -/
theorem store_of_posterMark
    {invalidatedAt ingestedAt : Int}
    (lawful : world.Lawful config)
    (taken :
      systemStep config world
        (.shared (.poster (.watch (.mark invalidatedAt ingestedAt)))) =
          some next)
    {judgement : Judgement}
    (isJudged :
      world.posterWatch.bind WatchTick.judged = some judgement) :
    reorgBatch config.chainId world.store judgement.batch invalidatedAt
        ingestedAt = .ok next.store ∧
      next.accepted = world.accepted := by
  obtain ⟨tick, watching, ofTick⟩ := Option.bind_eq_some_iff.mp isJudged
  obtain ⟨after, reorged⟩ :=
    lawful.reorgBatch_succeeds isJudged invalidatedAt ingestedAt
  obtain ⟨outcome, stepped, rfl⟩ := Option.map_eq_some_iff.mp taken
  simp only [watching, watchStep, markStep, ofTick, reorged,
    Option.some.injEq] at stepped
  subst stepped
  exact ⟨reorged, rfl⟩

/-- A step keeps pending rows accepted exactly if it re-enqueues accepted
messages only. -/
theorem pendingAccepted_systemStep
    {event : SystemEvent}
    (lawful : world.Lawful config)
    (good : world.PendingAccepted config)
    (taken : systemStep config world event = some next) :
    next.PendingAccepted config ↔ requeuesAllow config world event := by
  constructor
  · intro goodNext
    unfold requeuesAllow
    split
    · rename_i invalidatedAt ingestedAt
      intro judgement isJudged key row found attached
      obtain ⟨reorged, sameAccepted⟩ :=
        store_of_posterMark lawful taken isJudged
      rcases message?_reorgBatch_of_attached reorged found attached with
        ⟨seq, after⟩ | ⟨-, pending | ⟨-, otherChain⟩⟩
      · exact (goodNext key _ after rfl).of_data
          (fun message member => sameAccepted ▸ member)
          rfl attached.2 rfl rfl rfl
      · exact good key row found pending
      · exact absurd (lawful.rows key row found).1 otherChain
    · trivial
  · intro allowed key row found pending
    have kept :
        ∀ message ∈ world.accepted, message ∈ next.accepted :=
      fun message member => accepted_systemStep taken member
    cases slotChange_systemStep taken key with
    | same unchanged =>
        have before := good key row (unchanged.symm.trans found) pending
        exact before.of_data kept rfl rfl rfl rfl rfl
    | @ingested _ _ _ decoded _ admissible isAccepted after
        overReorged =>
        cases after.symm.trans found
        exact ⟨decoded, isAccepted, admissible, rfl, rfl, rfl, rfl, rfl⟩
    | confirmed isBroadcast included recorded ofPack ofEntry ofSlot
        before sameHash unconfirmed after =>
        cases after.symm.trans found
        cases pending
    | observed confirmed ofChain inRange after =>
        cases after.symm.trans found
        cases confirmed.symm.trans pending
    | marked isWatch before inTx isMarked after =>
        cases after.symm.trans found
        cases pending
    | requeued isJudged before attached isMarked after =>
        have accepts := allowed _ isJudged key _ before attached
        cases after.symm.trans found
        exact accepts.of_data kept rfl attached.2.symm rfl rfl rfl

/-- Over accepted pending rows no tick throws. -/
theorem ticksSafely_of_pendingAccepted
    (good : world.PendingAccepted config) :
    world.TicksSafely config := by
  intro pool state now read arrays
  apply aggregatorTick_succeeds
  intro tag listed messages picked
  obtain ⟨count, rfl⟩ := picked_prefix picked
  apply enrich_encodable rfl
  · exact (List.length_take_le' count (pool tag)).trans
      (arrays tag listed)
  · intro message member
    obtain ⟨-, row, inTable, -, pending, sameKey, -, sameContents,
        sameSignature, -⟩ :=
      mem_snapshotPools read (List.mem_of_mem_take member)
    obtain ⟨accepted, -, admissible, spells⟩ :=
      good row.key row (Table.mem_rows_iff.mp inTable) pending
    have sameNonce : message.nonce = accepted.nonce :=
      congrArg Prod.snd (sameKey.trans spells.key)
    refine ⟨?_, ?_, ?_⟩
    · rw [sameSignature, spells.signature]
      exact admissible.signature
    · show message.nonce ≤ MAX_NONCE
      rw [sameNonce]
      exact admissible.nonce
    · show message.contents.length ≤ MAX_UINT32
      rw [sameContents, spells.contents]
      exact admissible.contents.trans config.contentsFit

theorem pendingSound_iff
    (config : SystemConfig)
    (world : World) :
    world.PendingSound config ↔ world.PendingAccepted config :=
  ⟨World.PendingSound.accepted,
    fun good => ⟨good, ticksSafely_of_pendingAccepted good⟩⟩

end Steps

theorem pendingAccepted_initial
    (config : SystemConfig) :
    World.initial.PendingAccepted config := by
  intro key row found
  cases found

/-- In every run of a Poster and a Reader over one store, pending rows are
accepted messages and ticks do not throw in every state, exactly if every mark
of the Poster's watcher re-enqueues accepted messages. -/
theorem pendingSound_iff_requeues_accepted
    (config : SystemConfig)
    (events : List SystemEvent) :
    Runs.AllStates (systemStep config) (World.PendingSound config)
        World.initial events ↔
      Runs.AllSteps (systemStep config) (requeuesAllow config)
        World.initial events := by
  apply Runs.allStates_iff_allSteps lawful_systemStep
  · intro world event next lawful good taken
    rw [pendingSound_iff] at good ⊢
    exact pendingAccepted_systemStep lawful good taken
  · exact lawful_initial config
  · rw [pendingSound_iff]
    exact pendingAccepted_initial config

/-- The Poster re-enqueues a message it never accepted, from a batch another
submitter posted. -/
example :
    ¬ Runs.AllStates (systemStep sampleConfig)
      (World.PendingAccepted sampleConfig) World.initial
      (watchedBatch (fun action => .poster (.watch action)) []
        .notFound) := by
  intro good
  have view :
      (Runs.exec? (systemStep sampleConfig) World.initial
        (watchedBatch (fun action => .poster (.watch action)) []
          .notFound)).map (fun world =>
            ((world.store.message? (7, 0)).map MessageRow.status,
              world.accepted)) =
        some (some .pending, []) := by
    decide +kernel
  obtain ⟨final, executed, isView⟩ := Option.map_eq_some_iff.mp view
  simp only [Prod.mk.injEq] at isView
  obtain ⟨row, found, pending⟩ := Option.map_eq_some_iff.mp isView.1
  obtain ⟨message, member, -⟩ :=
    good.final executed (7, 0) row found pending
  rw [isView.2] at member
  cases member

end Bam
