import Bam.Reader.Convergence
import Bam.System.World

namespace Bam

/-!
# What a step of the Poster can do

`PosterStep` lists the outcomes of `posterStep` once, with their guards.  Every
invariant of the Poster is proved by cases over it.
-/

/-- The transaction a send puts on the wire. -/
def SendResult.txHash? : SendResult → Option Bytes32
  | .accepted txHash => some txHash
  | .lost txHash _ => some txHash
  | .refused _ => none

/-- Everything but the aggregator's own progress is as before. -/
structure World.SameSurroundings
    (world next : World) : Prop where
  store : next.store = world.store
  posterWatch : next.posterWatch = world.posterWatch
  readerWatch : next.readerWatch = world.readerWatch
  canonical : next.canonical = world.canonical
  accepted : next.accepted = world.accepted
  marks : next.marks = world.marks

/-- A phase a broadcast may move to without its confirm transaction. -/
inductive BroadcastPhase.Leads : BroadcastPhase → BroadcastPhase → Prop where
  | included (receipt : TransactionReceipt) :
      Leads .awaiting (.included receipt)
  | abandonedAwaiting : Leads .awaiting .abandoned
  | abandonedIncluded (receipt : TransactionReceipt) :
      Leads (.included receipt) .abandoned

inductive PosterStep
    (config : SystemConfig)
    (world : World) :
    PosterEvent → World → Prop where
  /-- Nothing but counters, flags and dropped ticks. -/
  | quiet
      {event : PosterEvent}
      {next : World}
      (same : world.SameSurroundings next)
      (broadcasts : next.broadcasts = world.broadcasts)
      (ticks : ∀ tick ∈ next.ticks, tick ∈ world.ticks) :
      PosterStep config world event next
  | ingested
      (raw : RawEnvelope)
      (withinRateLimit : Bool)
      (now : Int) :
      PosterStep config world (.ingest raw withinRateLimit now)
        (world.ingest config raw withinRateLimit now)
  | prepared
      {now : Int}
      {pool : PoolView}
      {state : AggregatorState}
      {pack : PackResult}
      {prepared : PreparedBlob}
      {next : World}
      (read :
        snapshotPools world.store config.aggregator.tags = .ok pool)
      (ticked :
        aggregatorTick config.aggregator world.aggregatorState
          { pool, now } = .ok (state, some pack))
      (nonempty : pack.plan.included ≠ [])
      (same : world.SameSurroundings next)
      (broadcasts : next.broadcasts = world.broadcasts)
      (ticks :
        next.ticks = world.ticks ++ [
          { pack := pack
            blobVersionedHash := prepared.blobVersionedHash
            recordedBefore := world.recorded }]) :
      PosterStep config world (.tickStart now) next
  | sent
      {index : Nat}
      {result : SendResult}
      {tick : PendingTick}
      {txHash : Bytes32}
      {phase : BroadcastPhase}
      {next : World}
      (found : world.ticks[index]? = some tick)
      (isSent : result.txHash? = some txHash)
      (fresh : world.broadcasts.get? txHash = none)
      (unconfirmed : phase = .awaiting ∨ phase = .abandoned)
      (same : world.SameSurroundings next)
      (broadcasts :
        next.broadcasts =
          world.broadcasts.put (world.broadcastOf tick txHash phase))
      (ticks : ∀ tick ∈ next.ticks, tick ∈ world.ticks) :
      PosterStep config world (.tickSend index result) next
  | phased
      {event : PosterEvent}
      {broadcast : Broadcast}
      {phase : BroadcastPhase}
      {next : World}
      (found : world.broadcasts.get? broadcast.txHash = some broadcast)
      (leads : broadcast.phase.Leads phase)
      (arrived :
        ∀ receipt, phase = .included receipt →
          ∃ txHash, event = .tickReceipt txHash (.ok receipt))
      (same : world.SameSurroundings next)
      (broadcasts :
        next.broadcasts =
          world.broadcasts.put { broadcast with phase := phase })
      (ticks : next.ticks = world.ticks) :
      PosterStep config world event next
  | confirmed
      {broadcast : Broadcast}
      {receipt : TransactionReceipt}
      {submittedAt : Int}
      {next : Store}
      (found : world.broadcasts.get? broadcast.txHash = some broadcast)
      (included : broadcast.phase = .included receipt)
      (committed :
        confirmIncluded config.keccak256 config.loop world.store
          (World.outcomeOf config broadcast receipt) submittedAt =
            .ok next) :
      PosterStep config world
        (.tickConfirm broadcast.txHash submittedAt)
        { world.setPhase broadcast (.recorded receipt) with
          store := next }
  | restarted :
      PosterStep config world .restart world.restart
  | watched
      {action : WatchAction}
      {outcome : WatchOutcome}
      (stepped :
        watchStep world
          (reorgCandidates config.chainId config.posterReorgWindow
            world.store)
          (fun invalidatedAt ingestedAt batch =>
            reorgBatch config.chainId world.store batch invalidatedAt
              ingestedAt)
          world.posterWatch action = some outcome) :
      PosterStep config world (.watch action)
        { world with
          posterWatch := outcome.1
          store := outcome.2.1
          marks := outcome.2.2 }
  | chained
      (canonical : List Bytes32) :
      PosterStep config world (.chain canonical)
        { world with canonical := canonical }

theorem World.SameSurroundings.rfl
    {world : World} :
    world.SameSurroundings world :=
  ⟨Eq.refl _, Eq.refl _, Eq.refl _, Eq.refl _, Eq.refl _, Eq.refl _⟩

theorem tickStart_cases
    (config : SystemConfig)
    (world : World)
    (now : Int) :
    PosterStep config world (.tickStart now)
      (world.tickStart config now) := by
  unfold World.tickStart
  split
  · exact .quiet .rfl rfl fun _ member => member
  split
  · exact .quiet .rfl rfl fun _ member => member
  rename_i pool read
  split
  · exact .quiet .rfl rfl fun _ member => member
  · exact .quiet ⟨rfl, rfl, rfl, rfl, rfl, rfl⟩ rfl
      fun _ member => member
  rename_i state pack ticked
  split
  · exact .quiet ⟨rfl, rfl, rfl, rfl, rfl, rfl⟩ rfl
      fun _ member => member
  rename_i nonempty
  split
  · exact .quiet ⟨rfl, rfl, rfl, rfl, rfl, rfl⟩ rfl
      fun _ member => member
  · exact .prepared read ticked nonempty
      ⟨rfl, rfl, rfl, rfl, rfl, rfl⟩ rfl rfl

theorem send_cases
    {world next : World}
    {index : Nat}
    {tick : PendingTick}
    {txHash : Bytes32}
    {phase : BroadcastPhase}
    (sent : world.send index tick txHash phase = some next) :
    world.broadcasts.get? txHash = none ∧
      next =
        { world with
          ticks := world.ticks.eraseIdx index
          broadcasts :=
            world.broadcasts.put
              (world.broadcastOf tick txHash phase) } := by
  unfold World.send at sent
  split at sent
  · cases sent
  · rename_i fresh
    cases sent
    exact ⟨fresh, rfl⟩

theorem tickSend_cases
    {config : SystemConfig}
    {world next : World}
    {index : Nat}
    {result : SendResult}
    (sent : world.tickSend index result = some next) :
    PosterStep config world (.tickSend index result) next := by
  have remaining :
      ∀ tick ∈ world.ticks.eraseIdx index, tick ∈ world.ticks :=
    fun _ member => List.mem_of_mem_eraseIdx member
  unfold World.tickSend at sent
  split at sent
  · cases sent
  rename_i tick found
  cases result with
  | accepted txHash =>
      obtain ⟨fresh, rfl⟩ := send_cases sent
      exact .sent found rfl fresh (.inl rfl)
        ⟨rfl, rfl, rfl, rfl, rfl, rfl⟩ rfl remaining
  | lost txHash error =>
      obtain ⟨middle, isMiddle, rfl⟩ := Option.map_eq_some_iff.mp sent
      obtain ⟨fresh, rfl⟩ := send_cases isMiddle
      exact .sent found rfl fresh (.inr rfl)
        ⟨rfl, rfl, rfl, rfl, rfl, rfl⟩ rfl remaining
  | refused error =>
      cases sent
      exact .quiet ⟨rfl, rfl, rfl, rfl, rfl, rfl⟩ rfl remaining

/-- A broadcast found under a hash has that hash. -/
theorem broadcast_found
    {world : World}
    {txHash : Bytes32}
    {broadcast : Broadcast}
    (found : world.broadcasts.get? txHash = some broadcast) :
    world.broadcasts.get? broadcast.txHash = some broadcast := by
  rw [Table.key_of_get? found]
  exact found

theorem tickReceipt_cases
    {config : SystemConfig}
    {world next : World}
    {txHash : Bytes32}
    {result : Except ErrorText TransactionReceipt}
    (arrived : world.tickReceipt txHash result = some next) :
    PosterStep config world (.tickReceipt txHash result) next := by
  unfold World.tickReceipt at arrived
  split at arrived
  · cases arrived
  rename_i broadcast found
  split at arrived
  · rename_i awaiting
    cases result with
    | ok receipt =>
        cases arrived
        exact .phased (broadcast_found found)
          (awaiting ▸ .included receipt)
          (fun _ isPhase => ⟨txHash, by cases isPhase; rfl⟩)
          ⟨rfl, rfl, rfl, rfl, rfl, rfl⟩ rfl rfl
    | error error =>
        cases arrived
        exact .phased (broadcast_found found)
          (awaiting ▸ .abandonedAwaiting)
          (fun _ isPhase => by cases isPhase)
          ⟨rfl, rfl, rfl, rfl, rfl, rfl⟩ rfl rfl
  · cases arrived

theorem tickConfirm_cases
    {config : SystemConfig}
    {world next : World}
    {txHash : Bytes32}
    {submittedAt : Int}
    (ended : world.tickConfirm config txHash submittedAt = some next) :
    PosterStep config world (.tickConfirm txHash submittedAt) next := by
  unfold World.tickConfirm at ended
  split at ended
  · cases ended
  rename_i broadcast found
  split at ended
  · rename_i receipt included
    split at ended
    · cases ended
      exact .phased (broadcast_found found)
        (included ▸ .abandonedIncluded receipt)
        (fun _ isPhase => by cases isPhase)
        ⟨rfl, rfl, rfl, rfl, rfl, rfl⟩ rfl rfl
    · rename_i store committed
      cases ended
      have sameHash : broadcast.txHash = txHash :=
        Table.key_of_get? found
      subst sameHash
      exact .confirmed found included committed
  · cases ended

theorem tickFail_cases
    {config : SystemConfig}
    {world next : World}
    {event : PosterEvent}
    {txHash : Bytes32}
    (failed : world.tickFail txHash = some next) :
    PosterStep config world event next := by
  unfold World.tickFail at failed
  split at failed
  · cases failed
  rename_i broadcast found
  split at failed
  · rename_i running
    cases failed
    refine .phased (broadcast_found found) ?_
      (fun _ isPhase => by cases isPhase)
      ⟨rfl, rfl, rfl, rfl, rfl, rfl⟩ rfl rfl
    unfold World.inFlight at running
    split at running
    · rename_i awaiting
      exact awaiting ▸ .abandonedAwaiting
    · rename_i receipt included
      exact included ▸ .abandonedIncluded receipt
    · cases running
  · cases failed

/-- Every step of the Poster is one of the listed outcomes. -/
theorem posterStep_cases
    {config : SystemConfig}
    {world next : World}
    {event : PosterEvent}
    (taken : posterStep config world event = some next) :
    PosterStep config world event next := by
  cases event with
  | ingest raw withinRateLimit now =>
      cases taken
      exact .ingested raw withinRateLimit now
  | tickStart now =>
      cases taken
      exact tickStart_cases config world now
  | tickSend index result =>
      exact tickSend_cases taken
  | tickReceipt txHash result =>
      exact tickReceipt_cases taken
  | tickConfirm txHash submittedAt =>
      exact tickConfirm_cases taken
  | tickFail txHash =>
      exact tickFail_cases taken
  | tickDrop index =>
      cases taken
      exact .quiet ⟨rfl, rfl, rfl, rfl, rfl, rfl⟩ rfl
        fun _ member => List.mem_of_mem_eraseIdx member
  | restart =>
      cases taken
      exact .restarted
  | watch action =>
      obtain ⟨outcome, stepped, rfl⟩ := Option.map_eq_some_iff.mp taken
      exact .watched stepped
  | chain canonical =>
      cases taken
      exact .chained canonical

/-- The broadcasts after a restart. -/
theorem mem_broadcasts_restart
    {world : World}
    {broadcast : Broadcast} :
    broadcast ∈ world.restart.broadcasts.rows ↔
      ∃ old ∈ world.broadcasts.rows,
        (if World.inFlight old then { old with phase := .abandoned }
        else old) = broadcast := by
  have keepsKey :
      ∀ old : Broadcast,
        ({ old with phase := .abandoned } : Broadcast).txHash =
          old.txHash :=
    fun _ => rfl
  exact @Table.mem_update _ _ _ _ _ _ keepsKey _

/-- The confirm transaction of the broadcast has committed. -/
def World.RecordedAs
    (world : World)
    (txHash : Bytes32)
    (receipt : TransactionReceipt) : Prop :=
  ∃ broadcast,
    world.broadcasts.get? txHash = some broadcast ∧
      broadcast.phase = .recorded receipt

/-- A step that records no broadcast keeps those that are recorded. -/
theorem World.RecordedAs.of_broadcasts
    {world next : World}
    {txHash : Bytes32}
    {receipt : TransactionReceipt}
    (recorded : world.RecordedAs txHash receipt)
    (same : next.broadcasts = world.broadcasts) :
    next.RecordedAs txHash receipt := by
  rw [World.RecordedAs, same]
  exact recorded

/-- Storing a broadcast keeps what other broadcasts have recorded. -/
theorem World.RecordedAs.of_put
    {world next : World}
    {txHash : Bytes32}
    {receipt : TransactionReceipt}
    {broadcast : Broadcast}
    (recorded : world.RecordedAs txHash receipt)
    (stored : next.broadcasts = world.broadcasts.put broadcast)
    (unrecorded : ¬ world.RecordedAs broadcast.txHash receipt) :
    next.RecordedAs txHash receipt := by
  have otherTx : broadcast.txHash ≠ txHash := by
    intro sameTx
    exact unrecorded (sameTx ▸ recorded)
  rw [World.RecordedAs, stored, Table.get?_put, if_neg otherTx]
  exact recorded

/-- A recorded broadcast stays recorded. -/
theorem recordedAs_posterStep
    {config : SystemConfig}
    {world next : World}
    {event : PosterEvent}
    {txHash : Bytes32}
    {receipt : TransactionReceipt}
    (recorded : world.RecordedAs txHash receipt)
    (taken : posterStep config world event = some next) :
    next.RecordedAs txHash receipt := by
  have unrecorded :
      ∀ {broadcast : Broadcast},
        world.broadcasts.get? broadcast.txHash = some broadcast →
        broadcast.phase ≠ .recorded receipt →
        ¬ world.RecordedAs broadcast.txHash receipt := by
    rintro broadcast found otherPhase ⟨other, isOther, isRecorded⟩
    rw [found, Option.some.injEq] at isOther
    exact otherPhase (isOther ▸ isRecorded)
  cases posterStep_cases taken with
  | quiet same broadcasts =>
      exact recorded.of_broadcasts broadcasts
  | ingested raw withinRateLimit now =>
      exact recorded
  | prepared read ticked nonempty same broadcasts =>
      exact recorded.of_broadcasts broadcasts
  | @sent _ _ tick sentHash phase _ found isSent fresh unconfirmed same
      broadcasts =>
      refine recorded.of_put broadcasts ?_
      rintro ⟨other, isOther, -⟩
      cases fresh.symm.trans isOther
  | @phased _ broadcast phase _ found leads arrived same broadcasts =>
      refine recorded.of_put broadcasts (@unrecorded broadcast found ?_)
      intro isRecorded
      rw [isRecorded] at leads
      cases leads
  | @confirmed broadcast other _ _ found included committed =>
      refine recorded.of_put rfl (@unrecorded broadcast found ?_)
      rw [included]
      intro isRecorded
      cases isRecorded
  | restarted =>
      obtain ⟨broadcast, found, isRecorded⟩ := recorded
      refine ⟨broadcast, ?_, isRecorded⟩
      have finished : World.inFlight broadcast = false := by
        rw [World.inFlight, isRecorded]
      rw [World.restart, Table.get?_update, found, Option.map_some,
        finished]
      rfl
  | watched stepped =>
      exact recorded
  | chained canonical =>
      exact recorded

/-- What a step of a watcher can do. -/
inductive WatchOutcome.Of
    (world : World)
    (candidates : Nat → List BatchRow)
    (reorg : Int → Int → BatchRow → Except StoreError Store) :
    Option WatchTick → WatchAction → WatchOutcome → Prop where
  | started
      (head : Nat) :
      Of world candidates reorg none (.start head)
        ((WatchTick.begin (candidates head)).settle, world.store,
          world.marks)
  | kept
      {tick : WatchTick}
      {batch : BatchRow}
      {rest : List BatchRow}
      {answer : ReceiptAnswer}
      {block : Nat}
      (next : tick.candidates = batch :: rest)
      (unjudged : tick.judged = none)
      (truthful : world.truthful batch.txHash answer = true)
      (answered : getTransactionBlock answer = some block) :
      Of world candidates reorg (some tick) (.lookup answer)
        ({ tick with
            candidates := rest
            kept := batch.txHash :: tick.kept }.settle,
          world.store, world.marks)
  | judged
      {tick : WatchTick}
      {batch : BatchRow}
      {rest : List BatchRow}
      {answer : ReceiptAnswer}
      (next : tick.candidates = batch :: rest)
      (unjudged : tick.judged = none)
      (truthful : world.truthful batch.txHash answer = true)
      (answered : getTransactionBlock answer = none) :
      Of world candidates reorg (some tick) (.lookup answer)
        (some { tick with
            candidates := rest
            judged := some { batch, answer } },
          world.store, world.marks)
  | marked
      {tick : WatchTick}
      {judgement : Judgement}
      {invalidatedAt ingestedAt : Int}
      {next : Store}
      (isJudged : tick.judged = some judgement)
      (reorged :
        reorg invalidatedAt ingestedAt judgement.batch = .ok next) :
      Of world candidates reorg (some tick)
        (.mark invalidatedAt ingestedAt)
        ((tick.afterMark judgement).settle, next,
          { txHash := judgement.batch.txHash
            answer := judgement.answer
            onChain := judgement.batch.txHash ∈ world.canonical } ::
            world.marks)
  | threw
      {tick : WatchTick}
      {judgement : Judgement}
      {invalidatedAt ingestedAt : Int}
      {error : StoreError}
      (isJudged : tick.judged = some judgement)
      (failed :
        reorg invalidatedAt ingestedAt judgement.batch =
          .error error) :
      Of world candidates reorg (some tick)
        (.mark invalidatedAt ingestedAt)
        (none, world.store, world.marks)
  | stopped
      (tick : WatchTick) :
      Of world candidates reorg (some tick) .stop
        (none, world.store, world.marks)

/-- Every step of a watcher is one of the listed outcomes. -/
theorem watchStep_cases
    {world : World}
    {candidates : Nat → List BatchRow}
    {reorg : Int → Int → BatchRow → Except StoreError Store}
    {watch : Option WatchTick}
    {action : WatchAction}
    {outcome : WatchOutcome}
    (stepped :
      watchStep world candidates reorg watch action = some outcome) :
    WatchOutcome.Of world candidates reorg watch action outcome := by
  unfold watchStep at stepped
  split at stepped
  · cases stepped
    exact .started _
  · rename_i tick answer
    unfold lookupStep at stepped
    split at stepped
    · rename_i batch rest unjudged next
      split at stepped
      · rename_i truthful
        cases stepped
        unfold WatchTick.lookup
        split
        · rename_i block answered
          exact .kept next unjudged truthful answered
        · rename_i answered
          exact .judged next unjudged truthful answered
      · cases stepped
    · cases stepped
  · rename_i tick invalidatedAt ingestedAt
    unfold markStep at stepped
    split at stepped
    · cases stepped
    rename_i judgement isJudged
    split at stepped
    · rename_i error failed
      cases stepped
      exact .threw isJudged failed
    · rename_i next reorged
      cases stepped
      exact .marked isJudged reorged
  · rename_i tick
    cases stepped
    exact .stopped tick
  · cases stepped

/-- A step of the Reader's watcher is a watcher step over its own candidates. -/
theorem readerWatchStep_cases
    {config : SystemConfig}
    {world next : World}
    {action : WatchAction}
    (taken : world.readerWatchStep config action = some next) :
    ∃ outcome : WatchOutcome,
      watchStep world
          (readerReorgCandidates config.chainId config.readerReorgWindow
            world.store)
          (fun invalidatedAt _ batch =>
            readerReorgBatch config.chainId world.store batch
              invalidatedAt)
          world.readerWatch action = some outcome ∧
        next =
          { world with
            readerWatch := outcome.1
            store := outcome.2.1
            marks := outcome.2.2 } := by
  obtain ⟨outcome, stepped, rfl⟩ := Option.map_eq_some_iff.mp taken
  exact ⟨outcome, stepped, rfl⟩

/-- A step of a watcher leaves the store and the marks alone, or it marks the
batch its tick has judged. -/
theorem watchStep_store
    {world : World}
    {candidates : Nat → List BatchRow}
    {reorg : Int → Int → BatchRow → Except StoreError Store}
    {watch : Option WatchTick}
    {action : WatchAction}
    {outcome : WatchOutcome}
    (stepped :
      watchStep world candidates reorg watch action = some outcome) :
    (outcome.2.1 = world.store ∧ outcome.2.2 = world.marks) ∨
      ∃ (judgement : Judgement) (invalidatedAt ingestedAt : Int)
          (onChain : Bool),
        watch.bind WatchTick.judged = some judgement ∧
        action = .mark invalidatedAt ingestedAt ∧
        reorg invalidatedAt ingestedAt judgement.batch =
          .ok outcome.2.1 ∧
        outcome.2.2 =
          { txHash := judgement.batch.txHash
            answer := judgement.answer
            onChain := onChain } :: world.marks := by
  cases watchStep_cases stepped with
  | started head =>
      exact .inl ⟨rfl, rfl⟩
  | kept next unjudged truthful answered =>
      exact .inl ⟨rfl, rfl⟩
  | judged next unjudged truthful answered =>
      exact .inl ⟨rfl, rfl⟩
  | @marked tick judgement invalidatedAt ingestedAt next isJudged
      reorged =>
      exact .inr ⟨judgement, invalidatedAt, ingestedAt, _, isJudged, rfl,
        reorged, rfl⟩
  | threw isJudged failed =>
      exact .inl ⟨rfl, rfl⟩
  | stopped tick =>
      exact .inl ⟨rfl, rfl⟩

/-- A tick that has something left to do goes on. -/
theorem settle_eq_some
    {tick after : WatchTick}
    (settled : tick.settle = some after) :
    after = tick := by
  unfold WatchTick.settle at settled
  split at settled
  · cases settled
  · exact (Option.some.inj settled).symm

/-- A tick that is over has nothing left to do. -/
theorem settle_eq_none
    {tick : WatchTick}
    (settled : tick.settle = none) :
    tick.judged = none ∧ tick.candidates = [] := by
  unfold WatchTick.settle at settled
  split at settled
  · assumption
  · cases settled

/-- What a settled tick has judged, the tick had judged. -/
theorem judged_of_settle
    {tick : WatchTick}
    {judgement : Judgement}
    (isJudged :
      tick.settle.bind WatchTick.judged = some judgement) :
    tick.judged = some judgement := by
  obtain ⟨after, isAfter, ofAfter⟩ := Option.bind_eq_some_iff.mp isJudged
  rw [settle_eq_some isAfter] at ofAfter
  exact ofAfter

/-- A request that changes the store or is accepted spells an admissible
message, up to its validation, and commits the ingest transaction. -/
theorem ingest_cases
    (config : SystemConfig)
    (world : World)
    (raw : RawEnvelope)
    (withinRateLimit : Bool)
    (now : Int) :
    world.ingest config raw withinRateLimit now = world ∨
      ∃ decoded next result,
        decoded.contentTag ∈ config.ingest.allowlistedTags ∧
        decoded.signature.length = 65 ∧
        decoded.contents.length ≤ config.ingest.maxContentsSizeBytes ∧
        computeMessageHash config.keccak256 decoded.sender
          decoded.contentTag decoded.nonce decoded.contents =
            some decoded.messageHash ∧
        ingestTxn config.ingest world.store decoded now =
          .ok (next, result) ∧
        world.ingest config raw withinRateLimit now =
          { world with
            store := next
            accepted :=
              World.acceptedAfter world.accepted (some decoded)
                (.ok result) } := by
  have stepped :
      world.ingest config raw withinRateLimit now =
        { world with
          store :=
            (Bam.ingest config.keccak256 config.ingest world.store raw
              withinRateLimit now).1
          accepted :=
            World.acceptedAfter world.accepted
              (World.requestedMessage config.keccak256 raw)
              (Bam.ingest config.keccak256 config.ingest world.store
                raw withinRateLimit now).2 } :=
    rfl
  rw [stepped, Bam.ingest]
  split
  · exact .inl rfl
  split
  · exact .inl rfl
  rename_i envelope parsed
  split
  · exact .inl rfl
  rename_i sizeFits
  split
  · exact .inl rfl
  rename_i listed
  split
  · exact .inl rfl
  rename_i messageHash hashed
  split
  · exact .inl rfl
  split
  · rename_i next result committed
    have isRequested :
        World.requestedMessage config.keccak256 raw =
          some {
            sender := envelope.sender
            nonce := envelope.nonce
            contents := envelope.contents
            contentTag := envelope.contentTag
            signature := envelope.signature
            messageHash := messageHash
            ingestedAt := none } := by
      rw [World.requestedMessage, parsed, Option.bind_some, hashed,
        Option.map_some]
    have signed : envelope.signature.length = 65 :=
      of_decide_eq_true (Option.filter_eq_some_iff.mp parsed).2
    refine .inr ⟨_, next, result, not_not.mp listed, signed,
      not_lt.mp sizeFits, hashed, committed, ?_⟩
    rw [isRequested]
  · exact .inl rfl
  · exact .inl rfl

/-- Ingest leaves the batch rows alone. -/
@[simp] theorem batches_ingest
    (config : SystemConfig)
    (world : World)
    (raw : RawEnvelope)
    (withinRateLimit : Bool)
    (now : Int) :
    (world.ingest config raw withinRateLimit now).store.batches =
      world.store.batches := by
  rcases ingest_cases config world raw withinRateLimit now with
    same | ⟨_, next, _, -, -, -, -, committed, isNext⟩
  · rw [same]
  · rw [isNext]
    exact (ingestTxn_ok committed).1

/-- Accepted messages stay accepted. -/
theorem accepted_ingest
    {config : SystemConfig}
    {world : World}
    (raw : RawEnvelope)
    (withinRateLimit : Bool)
    (now : Int)
    {message : DecodedMessage}
    (member : message ∈ world.accepted) :
    message ∈ (world.ingest config raw withinRateLimit now).accepted := by
  rcases ingest_cases config world raw withinRateLimit now with
    same | ⟨decoded, _, result, -, -, -, -, -, isNext⟩
  · rw [same]
    exact member
  · rw [isNext]
    cases result with
    | accepted messageHash =>
        exact List.mem_cons_of_mem decoded member
    | rejected reason =>
        exact member

/-- A slot after a request: as before, or an admissible message took it as
pending, and then it was free or held a reorged row. -/
theorem message?_ingest
    (config : SystemConfig)
    (world : World)
    (raw : RawEnvelope)
    (withinRateLimit : Bool)
    (now : Int)
    (key : MessageKey) :
    (world.ingest config raw withinRateLimit now).store.message? key =
        world.store.message? key ∨
      ∃ decoded seq,
        Admissible config.keccak256 config.ingest decoded ∧
        decoded.key = key ∧
        decoded ∈
          (world.ingest config raw withinRateLimit now).accepted ∧
        (world.ingest config raw withinRateLimit now).store.message? key =
          some (pendingRowOf config.ingest decoded now seq).toMessageRow ∧
        ∀ existing, world.store.message? key = some existing →
          existing.status = .reorged := by
  rcases ingest_cases config world raw withinRateLimit now with
    same | ⟨decoded, next, result, listed, signed, fits, hashed,
      committed, isNext⟩
  · exact .inl (by rw [same])
  rw [isNext]
  rcases (ingestTxn_ok committed).2 with
    ⟨sameMessages, -⟩ | ⟨valid, isAccepted, ⟨seq, inserted⟩, inRange,
      overReorged, -⟩
  · exact .inl (by rw [Store.message?, sameMessages, Store.message?])
  by_cases ofSlot : decoded.key = key
  · subst ofSlot
    refine .inr ⟨decoded, seq,
      { allowlisted := listed
        signature := signed
        contents := fits
        nonce := inRange
        hash := hashed
        validated := valid }, rfl, ?_, ?_, overReorged⟩
    · rw [isAccepted]
      exact List.mem_cons_self
    · rw [Store.message?, inserted]
      exact Table.get?_put_self _ _
  · refine .inl ?_
    rw [Store.message?, inserted, Table.get?_put]
    exact if_neg ofSlot

/-- A batch row after a confirm transaction: confirmed by it, or as before but
for the link to its replacement. -/
theorem batch?_confirmIncluded
    {config : SystemConfig}
    {store next : Store}
    {broadcast : Broadcast}
    {receipt : TransactionReceipt}
    {submittedAt : Int}
    (committed :
      confirmIncluded config.keccak256 config.loop store
        (World.outcomeOf config broadcast receipt) submittedAt =
          .ok next)
    (key : BatchKey) :
    (next.BatchConfirmed (World.outcomeOf config broadcast receipt) key ∧
      ∃ entry ∈ submittedEntries broadcast.pack,
        key = (config.chainId, broadcast.txHash, entry.contentTag)) ∨
      (next.batch? key).map BatchRow.withoutReplacement =
        (store.batch? key).map BatchRow.withoutReplacement := by
  obtain ⟨ofEntries, ofOthers⟩ := batch?_confirmEntries committed
  by_cases isEntry :
      ∃ entry ∈ submittedEntries broadcast.pack,
        key = (config.chainId, broadcast.txHash, entry.contentTag)
  · obtain ⟨entry, member, ofKey⟩ := isEntry
    exact .inl ⟨ofKey ▸ ofEntries entry member, entry, member, ofKey⟩
  · exact .inr (ofOthers key fun entry member ofKey =>
      isEntry ⟨entry, member, ofKey⟩)

/-- A Reader's batch is one of the calls `readerStep` makes. -/
theorem systemStep_processBatch
    {config : SystemConfig}
    {world next : World}
    {opts : ProcessBatchOptions}
    (taken : systemStep config world (.processBatch opts) = some next) :
    ∃ store,
      readerStep config.libraries world.store (.processBatch opts) =
          some store ∧
        next = { world with store := store } := by
  simp only [systemStep] at taken
  split at taken
  · simp only [readerStep]
    cases isAnswer :
        (processBatch config.libraries opts world.store
          emptyCounters).2 with
    | ok answer =>
        rw [isAnswer] at taken
        cases taken
        exact ⟨answer.1, rfl, rfl⟩
    | error error =>
        rw [isAnswer] at taken
        cases taken
        exact ⟨world.store, rfl, rfl⟩
  · cases taken

/-- A Poster and a Reader of chain 1, for runs on fixed inputs. -/
def sampleConfig : SystemConfig where
  libraries := sampleLibraries
  ingest := {
    validate := fun _ => .ok ()
    allowlistedTags := [5, 6]
    maxMessageSizeBytes := 1000
    maxContentsSizeBytes := 100
    chainId := 1 }
  policy := { DefaultBatchPolicyConfig.empty with forceFlush := true }
  maxTagsPerPack := 2
  capacityFEs := none
  capacityBytes := none
  blobCapacityBytes := DEFAULT_BLOB_CAPACITY_BYTES
  posterReorgWindow := some 32
  readerReorgWindow := some 32
  commitToBlob := fun _ => 0
  submitter := 9
  contentsFit := by decide

end Bam
