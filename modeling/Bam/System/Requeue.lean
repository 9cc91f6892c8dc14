import Bam.System.BroadcastOnce

namespace Bam

/-!
# Restoring the messages of a dropped transaction

`markReorged` flips the rows of all tags of a transaction, and the Poster's
watcher re-enqueues them tag by tag.  A tick that gives the batches of one
transaction one answer, and is not cut off between the first of them and the
last, leaves no message reorged: afterwards every message of a marked
transaction is pending, or confirmed in another one.  A Reader's watcher over
the same store must not mark the transaction first.
-/

/-- A reorged message is attached to a batch that the running watcher tick has
still to re-enqueue. -/
def World.Restoring (world : World) : Prop :=
  ∀ key row,
    world.store.message? key = some row →
    row.status = .reorged →
    ∃ tick,
      world.posterWatch = some tick ∧
        ∃ batch ∈ tick.batches,
          row.AttachedTo batch ∧ batch.txHash ∈ tick.marked

/-- The message is pending, or confirmed in a broadcast that is not marked. -/
def World.Held
    (world : World)
    (key : MessageKey) : Prop :=
  ∃ row,
    world.store.message? key = some row ∧
      (row.status = .pending ∨
        row.status = .confirmed ∧
          ∃ broadcast ∈ world.broadcasts.rows,
            row.batchRef = some broadcast.txHash ∧
              key ∈ broadcast.pack.keys ∧
              broadcast.txHash ∉ world.marked)

/-- While no watcher tick runs, no message is reorged, and every message of a
broadcast is held. -/
def World.Restored (world : World) : Prop :=
  world.posterWatch = none →
    (∀ key row,
      world.store.message? key = some row → row.status ≠ .reorged) ∧
      ∀ broadcast ∈ world.broadcasts.rows,
        ∀ key ∈ broadcast.pack.keys, world.Held key

/-- The running tick has marked none of the transactions it still works on. -/
def World.interruptible (world : World) : Bool :=
  match world.posterWatch with
  | none => true
  | some tick =>
      tick.batches.all fun batch => batch.txHash ∉ tick.marked

/-- No message is confirmed in the transaction the Reader's watcher has judged
dropped. -/
def World.readerMarksUnconfirmed
    (config : SystemConfig)
    (world : World) : Bool :=
  (world.readerWatch.bind WatchTick.judged).all fun judgement =>
    world.store.messages.rows.all fun row =>
      !row.isConfirmedIn config.chainId judgement.batch.txHash

/-- A tick of the Poster's watcher gives the batches of one transaction one
answer and ends only between transactions; the Reader's watcher marks only
transactions whose messages are not confirmed any more. -/
def watchesAllow
    (config : SystemConfig)
    (world : World) : SharedEvent → Bool
  | .poster (.watch (.lookup answer)) =>
      match world.posterWatch.map WatchTick.candidates with
      | some (batch :: _) =>
          match getTransactionBlock answer with
          | some _ =>
              world.posterWatch.all fun tick =>
                batch.txHash ∉ tick.marked
          | none =>
              world.posterWatch.all fun tick =>
                batch.txHash ∉ tick.kept
      | _ => true
  | .poster (.watch .stop) => world.interruptible
  | .poster .restart => world.interruptible
  | .readerWatch (.mark _ _) => world.readerMarksUnconfirmed config
  | _ => true

/-- Batch rows stand at the block of their transaction's receipt. -/
def World.Located (world : World) : Prop :=
  ∀ key batch,
    world.store.batch? key = some batch →
    ∃ receipt,
      world.RecordedAs key.2.1 receipt ∧
        batch.blockNumber = some receipt.blockNumber

/-- What the running tick, if any, has to know. -/
structure World.WatchSound
    (config : SystemConfig)
    (world : World) : Prop where
  judged :
    ∀ tick judgement,
      world.posterWatch = some tick →
      tick.judged = some judgement →
      judgement.batch.txHash ∉ tick.kept
  /-- The tick has every tag of a transaction it has not found. -/
  covered :
    ∀ tick,
      world.posterWatch = some tick →
      ∀ batch ∈ tick.batches,
        batch.txHash ∉ tick.kept →
        ∀ key row,
          world.store.message? key = some row →
          row.isConfirmedIn config.chainId batch.txHash = true →
          ∃ other ∈ tick.batches, row.AttachedTo other
  restoring : world.Restoring

/-- What allowed steps keep of the store and of the running watcher tick. -/
structure World.Watching
    (config : SystemConfig)
    (world : World) : Prop
    extends world.Ledger config, world.WatchSound config where
  refer : world.ConfirmedRefer
  located : world.Located
  unsubmitted :
    ∀ key row,
      world.store.message? key = some row → row.status ≠ .submitted

theorem watching_initial
    (config : SystemConfig) :
    World.initial.Watching config where
  toLedger := ledger_initial config
  refer := confirmedRefer_initial
  located := by
    intro key batch found
    cases found
  unsubmitted := by
    intro key row found
    cases found
  judged := by
    intro tick judgement watching
    cases watching
  covered := by
    intro tick watching
    cases watching
  restoring := by
    intro key row found
    cases found

section Steps

variable {config : SystemConfig}
variable {world next : World}
variable {event : SharedEvent}

/-- A transaction is confirmed once, so it is recorded at one position. -/
theorem recordsAllow_of_ledger
    (ledger : world.Ledger config) :
    recordsAllow config world (.shared event) = true := by
  unfold recordsAllow
  split
  · rename_i contradiction
    cases contradiction
  · split
    · rename_i txHash submittedAt isEvent found
      rw [Store.standAt_iff]
      intro key row isRow inTx _
      obtain ⟨sameTx, -, confirmed⟩ :=
        MessageRow.isConfirmedIn_iff.mp inTx
      obtain ⟨broadcast, member, ⟨recorded, isPhase⟩, attached, -⟩ :=
        ledger.confirmedRows key row isRow confirmed
      rw [sameTx, Option.some.injEq] at attached
      subst attached
      rw [Table.mem_rows_iff.mp member] at found
      cases found
      cases isPhase
    · rfl
  · rfl

theorem refer_sharedStep
    (ledger : world.Ledger config)
    (refer : world.ConfirmedRefer)
    (taken : sharedStep config world event = some next) :
    next.ConfirmedRefer := by
  cases event with
  | poster event =>
      exact confirmedRefer_posterStep refer
        (recordsAllow_of_ledger ledger) taken
  | readerWatch action =>
      exact confirmedRefer_readerWatch refer taken

theorem located_sharedStep
    (located : world.Located)
    (taken : sharedStep config world event = some next) :
    next.Located := by
  have ofBefore :
      ∀ key (batch old : BatchRow),
        world.store.batch? key = some old →
        batch.blockNumber = old.blockNumber →
        ∃ receipt,
          next.RecordedAs key.2.1 receipt ∧
            batch.blockNumber = some receipt.blockNumber := by
    intro key batch old before sameBlock
    obtain ⟨receipt, recorded, block⟩ := located key old before
    refine ⟨receipt, ?_, sameBlock.trans block⟩
    cases event with
    | poster event =>
        exact recordedAs_posterStep recorded taken
    | readerWatch action =>
        obtain ⟨outcome, -, rfl⟩ := readerWatchStep_cases taken
        exact recorded
  have ofMark :
      ∀ {after : Store} {txHash : Bytes32} {invalidatedAt : Int} {key},
        after.batch? key =
            ((world.store.batch? key).map fun other =>
              if other.isOf config.chainId txHash then
                other.markedReorged invalidatedAt
              else other) →
        ∀ batch, after.batch? key = some batch →
          ∃ receipt,
            next.RecordedAs key.2.1 receipt ∧
              batch.blockNumber = some receipt.blockNumber := by
    intro after txHash invalidatedAt key marked batch found
    rw [marked] at found
    obtain ⟨old, before, rfl⟩ := Option.map_eq_some_iff.mp found
    refine ofBefore key _ old before ?_
    split <;> rfl
  intro key batch found
  cases event with
  | readerWatch action =>
      obtain ⟨outcome, stepped, rfl⟩ := readerWatchStep_cases taken
      rcases watchStep_store stepped with
        ⟨same, -⟩ | ⟨_, _, _, _, -, -, marked, -⟩
      · exact ofBefore key batch batch (same ▸ found) rfl
      · exact ofMark (Store.batch?_markReorged marked key) batch found
  | poster event =>
      cases posterStep_cases taken with
      | quiet same =>
          exact ofBefore key batch batch (same.store ▸ found) rfl
      | ingested raw withinRateLimit now =>
          rw [Store.batch?, batches_ingest] at found
          exact ofBefore key batch batch found rfl
      | prepared read ticked nonempty same =>
          exact ofBefore key batch batch (same.store ▸ found) rfl
      | sent isFound isSent fresh unconfirmed same =>
          exact ofBefore key batch batch (same.store ▸ found) rfl
      | phased isFound leads arrived same =>
          exact ofBefore key batch batch (same.store ▸ found) rfl
      | @confirmed broadcast receipt _ _ isFound included committed =>
          rcases batch?_confirmIncluded committed key with
            ⟨⟨other, isOther, -, block, -⟩, entry, -, rfl⟩ | same
          · cases isOther.symm.trans found
            exact ⟨receipt, ⟨_, Table.get?_put_self _ _, rfl⟩, block⟩
          · rw [show Store.batch? _ key = some batch from found,
              Option.map_some] at same
            obtain ⟨old, before, core⟩ :=
              Option.map_eq_some_iff.mp same.symm
            exact ofBefore key batch old before
              (congrArg BatchRow.blockNumber core).symm
      | restarted =>
          exact ofBefore key batch batch found rfl
      | watched stepped =>
          rcases watchStep_store stepped with
            ⟨same, -⟩ | ⟨_, _, _, _, -, -, reorged, -⟩
          · exact ofBefore key batch batch (same ▸ found) rfl
          · exact ofMark (batch?_reorgBatch reorged key) batch found
      | chained canonical =>
          exact ofBefore key batch batch found rfl

/-- No step leaves a row submitted. -/
theorem unsubmitted_sharedStep
    (unsubmitted :
      ∀ key row,
        world.store.message? key = some row → row.status ≠ .submitted)
    (taken : sharedStep config world event = some next)
    (key : MessageKey)
    (row : MessageRow)
    (found : next.store.message? key = some row) :
    row.status ≠ .submitted := by
  have isStep :
      systemStep config world (.shared event) = some next :=
    taken
  intro submitted
  cases slotChange_systemStep isStep key with
  | same unchanged =>
      exact unsubmitted key row (unchanged.symm.trans found) submitted
  | ingested admissible isAccepted after overReorged =>
      cases after.symm.trans found
      cases submitted
  | confirmed isFound included recorded ofPack ofEntry ofSlot before
      sameHash unconfirmed after =>
      cases after.symm.trans found
      cases submitted
  | marked isWatch before inTx isMarked after =>
      cases after.symm.trans found
      cases submitted
  | requeued isJudged before attached isMarked after =>
      cases after.symm.trans found
      cases submitted

/-- The watched transactions are recorded. -/
theorem watched_recorded
    (ledger : world.Ledger config)
    {tick : WatchTick}
    (watching : world.posterWatch = some tick)
    {batch : BatchRow}
    (member : batch ∈ tick.batches) :
    batch.txHash ∈ world.recorded :=
  ledger.batches batch.key (ledger.watched tick watching batch member).2

/-- A tick that starts knows every tag of its transactions. -/
theorem covered_candidates
    (watching : world.Watching config)
    {head : Nat}
    {batch : BatchRow}
    (member :
      batch ∈ reorgCandidates config.chainId config.posterReorgWindow
        world.store head)
    {key : MessageKey}
    {row : MessageRow}
    (found : world.store.message? key = some row)
    (inTx : row.isConfirmedIn config.chainId batch.txHash = true) :
    ∃ other ∈ reorgCandidates config.chainId config.posterReorgWindow
        world.store head,
      row.AttachedTo other := by
  obtain ⟨attached, ofChain, confirmed⟩ :=
    MessageRow.isConfirmedIn_iff.mp inTx
  obtain ⟨chainId, txHash, other, isChain, isTx, isOther,
    otherConfirmed, -, -⟩ :=
    watching.refer key row found confirmed
  cases ofChain.symm.trans isChain
  cases attached.symm.trans isTx
  obtain ⟨inStore, -, -, block, isBlock, inWindow⟩ :=
    mem_reorgCandidates.mp member
  obtain ⟨receipt, recorded, isReceipt⟩ :=
    watching.located batch.key batch (Table.mem_rows_iff.mp inStore)
  obtain ⟨otherReceipt, otherRecorded, isOtherReceipt⟩ :=
    watching.located _ other isOther
  obtain ⟨broadcast, isBroadcast, isPhase⟩ := recorded
  obtain ⟨sameBroadcast, isSame, samePhase⟩ := otherRecorded
  -- the two batch rows are of one broadcast, so of one block
  have sameReceipt : otherReceipt = receipt := by
    cases isBroadcast.symm.trans isSame
    exact BroadcastPhase.recorded.inj (samePhase.symm.trans isPhase)
  have sameKey := Store.key_of_batch? isOther
  simp only [BatchRow.key, Prod.mk.injEq] at sameKey
  obtain ⟨otherChain, otherTx, otherTag⟩ := sameKey
  refine ⟨other, mem_reorgCandidates.mpr ⟨Table.mem_of_get? isOther,
    otherChain, otherConfirmed, block, ?_, inWindow⟩, ?_, otherTag.symm⟩
  · rw [isOtherReceipt, sameReceipt, ← isReceipt]
    exact isBlock
  · rw [otherTx]
    exact attached

/-- An allowed mark of the Reader's watcher leaves the message rows alone. -/
theorem message?_readerWatch
    {action : WatchAction}
    (allowed :
      watchesAllow config world (.readerWatch action) = true)
    (taken : world.readerWatchStep config action = some next)
    (key : MessageKey) :
    next.store.message? key = world.store.message? key := by
  obtain ⟨outcome, stepped, rfl⟩ := readerWatchStep_cases taken
  rcases watchStep_store stepped with
    ⟨same, -⟩ | ⟨judgement, _, _, _, isJudged, rfl, marked, -⟩
  · exact congrArg (fun store : Store => store.message? key) same
  · rw [watchesAllow, World.readerMarksUnconfirmed, isJudged,
      Option.all_some, List.all_eq_true] at allowed
    have after := Store.message?_markReorged marked key
    rw [after]
    cases before : world.store.message? key with
    | none =>
        rfl
    | some row =>
        have unconfirmed := allowed row (Table.mem_of_get? before)
        rw [Bool.not_eq_true'] at unconfirmed
        rw [Option.map_some, unconfirmed]
        rfl

/-- A step that leaves the Poster's watcher alone confirms nothing in a watched
transaction and reorgs nothing. -/
theorem watchSound_of_unwatched
    (watching : world.Watching config)
    (allowed : watchesAllow config world event = true)
    (taken : sharedStep config world event = some next)
    (unwatched : ∀ action, event ≠ .poster (.watch action))
    (same : next.posterWatch = world.posterWatch) :
    next.WatchSound config := by
  have isStep :
      systemStep config world (.shared event) = some next :=
    taken
  have unmarked :
      ∀ {key : MessageKey} {old : MessageRow} {txHash : Bytes32},
        SystemEvent.IsWatch (.shared event) →
        world.store.message? key = some old →
        old.isConfirmedIn config.chainId txHash = true →
        next.store.message? key = some old.markedReorged →
        False := by
    intro key old txHash isWatch before inTx after
    cases event with
    | poster event =>
        cases event with
        | watch action =>
            exact unwatched action rfl
        | _ =>
            exact isWatch
    | readerWatch action =>
        have unchanged := message?_readerWatch allowed taken key
        rw [after, before, Option.some.injEq] at unchanged
        have confirmed := (MessageRow.isConfirmedIn_iff.mp inTx).2.2
        rw [← unchanged] at confirmed
        cases confirmed
  constructor
  · rw [same]
    exact watching.judged
  · intro tick isTick batch member notKept key row found inTx
    rw [same] at isTick
    cases slotChange_systemStep isStep key with
    | same unchanged =>
        exact watching.covered tick isTick batch member notKept key row
          (unchanged.symm.trans found) inTx
    | ingested admissible isAccepted after overReorged =>
        cases after.symm.trans found
        cases (MessageRow.isConfirmedIn_iff.mp inTx).2.2
    | @confirmed broadcast receipt _ _ _ _ _ _ isFound included recorded
        ofPack ofEntry ofSlot before sameHash unconfirmed after =>
        cases after.symm.trans found
        have sameTx :=
          Option.some.inj (MessageRow.isConfirmedIn_iff.mp inTx).1
        have known := watched_recorded watching.toLedger isTick member
        rw [← sameTx] at known
        obtain ⟨other, isPhase⟩ :=
          recorded_of_mem (Table.mem_of_get? isFound) known
        cases included.symm.trans isPhase
    | marked isWatch before isTx isMarked after =>
        exact (unmarked isWatch before isTx after).elim
    | requeued isJudged before attached isMarked after =>
        exact absurd rfl (unwatched _)
  · intro key row found reorged
    rw [same]
    cases slotChange_systemStep isStep key with
    | same unchanged =>
        exact watching.restoring key row (unchanged.symm.trans found)
          reorged
    | ingested admissible isAccepted after overReorged =>
        cases after.symm.trans found
        cases reorged
    | confirmed isFound included recorded ofPack ofEntry ofSlot before
        sameHash unconfirmed after =>
        cases after.symm.trans found
        cases reorged
    | marked isWatch before isTx isMarked after =>
        exact (unmarked isWatch before isTx after).elim
    | requeued isJudged before attached isMarked after =>
        exact absurd rfl (unwatched _)

/-- Where the watcher may be interrupted no message is reorged. -/
theorem unreorged_of_interruptible
    (restoring : world.Restoring)
    (interruptible : world.interruptible = true)
    {key : MessageKey}
    {row : MessageRow}
    (found : world.store.message? key = some row) :
    row.status ≠ .reorged := by
  intro reorged
  obtain ⟨tick, watching, batch, member, -, isMarked⟩ :=
    restoring key row found reorged
  rw [World.interruptible, watching, List.all_eq_true] at interruptible
  exact of_decide_eq_true (interruptible batch member) isMarked

/-- A world without a running tick and without reorged messages. -/
theorem watchSound_of_none
    (idle : world.posterWatch = none)
    (unreorged :
      ∀ key row,
        world.store.message? key = some row →
        row.status ≠ .reorged) :
    world.WatchSound config where
  judged := by
    intro tick judgement watching
    cases idle.symm.trans watching
  covered := by
    intro tick watching
    cases idle.symm.trans watching
  restoring := by
    intro key row found reorged
    exact absurd reorged (unreorged key row found)

/-- A world whose running tick may have nothing left to do. -/
theorem watchSound_of_settle
    {tick : WatchTick}
    (settled : world.posterWatch = tick.settle)
    (judged :
      ∀ judgement,
        tick.judged = some judgement →
        judgement.batch.txHash ∉ tick.kept)
    (covered :
      ∀ batch ∈ tick.batches,
        batch.txHash ∉ tick.kept →
        ∀ key row,
          world.store.message? key = some row →
          row.isConfirmedIn config.chainId batch.txHash = true →
          ∃ other ∈ tick.batches, row.AttachedTo other)
    (restoring :
      ∀ key row,
        world.store.message? key = some row →
        row.status = .reorged →
        ∃ batch ∈ tick.batches,
          row.AttachedTo batch ∧ batch.txHash ∈ tick.marked) :
    world.WatchSound config := by
  cases running : tick.settle with
  | none =>
      rw [running] at settled
      refine watchSound_of_none settled fun key row found reorged => ?_
      obtain ⟨unjudged, finished⟩ := settle_eq_none running
      obtain ⟨batch, member, -⟩ := restoring key row found reorged
      rw [WatchTick.batches, unjudged, finished] at member
      cases member
  | some after =>
      have isTick := settle_eq_some running
      subst isTick
      rw [running] at settled
      constructor
      · intro tick judgement watching
        cases settled.symm.trans watching
        exact judged judgement
      · intro tick watching
        cases settled.symm.trans watching
        exact covered
      · intro key row found reorged
        exact ⟨after, settled, restoring key row found reorged⟩

section WatchSteps

variable {tick : WatchTick}
variable {first : BatchRow}
variable {rest : List BatchRow}

/-- Dropping the batch of a transaction found on chain. -/
theorem watchSound_kept
    (sound : world.WatchSound config)
    (watching : world.posterWatch = some tick)
    (isNext : tick.candidates = first :: rest)
    (unjudged : tick.judged = none)
    (unmarked : first.txHash ∉ tick.marked)
    (sameStore : next.store = world.store)
    (settled :
      next.posterWatch =
        { tick with
          candidates := rest
          kept := first.txHash :: tick.kept }.settle) :
    next.WatchSound config := by
  have isBatches : tick.batches = first :: rest := by
    rw [WatchTick.batches, unjudged, isNext]
    rfl
  have remaining :
      ∀ batch ∈ tick.batches, batch.txHash ≠ first.txHash →
        batch ∈ rest := by
    intro batch member otherTx
    rw [isBatches] at member
    rcases List.mem_cons.mp member with rfl | inRest
    · exact absurd rfl otherTx
    · exact inRest
  refine watchSound_of_settle settled ?_ ?_ ?_
  · intro judgement isJudged
    cases unjudged.symm.trans isJudged
  · intro batch member notKept key row found inTx
    rw [WatchTick.batches, unjudged] at member ⊢
    obtain ⟨otherTx, before⟩ := not_or.mp (mt List.mem_cons.mpr notKept)
    rw [sameStore] at found
    obtain ⟨other, isOther, attached⟩ :=
      sound.covered tick watching batch
        (isBatches ▸ List.mem_cons_of_mem first member) before key row
        found inTx
    refine ⟨other, remaining other isOther ?_, attached⟩
    have sameTx := (MessageRow.isConfirmedIn_iff.mp inTx).1
    rw [attached.1, Option.some.injEq] at sameTx
    exact sameTx ▸ otherTx
  · intro key row found reorged
    rw [sameStore] at found
    obtain ⟨_, isTick, batch, member, attached, isMarked⟩ :=
      sound.restoring key row found reorged
    cases watching.symm.trans isTick
    rw [WatchTick.batches, unjudged]
    refine ⟨batch, remaining batch member ?_, attached, isMarked⟩
    intro sameTx
    exact unmarked (sameTx ▸ isMarked)

/-- Judging the next batch dropped. -/
theorem watchSound_judged
    {answer : ReceiptAnswer}
    (sound : world.WatchSound config)
    (watching : world.posterWatch = some tick)
    (isNext : tick.candidates = first :: rest)
    (unjudged : tick.judged = none)
    (notKept : first.txHash ∉ tick.kept)
    (sameStore : next.store = world.store)
    (isAfter :
      next.posterWatch =
        some { tick with
          candidates := rest
          judged := some { batch := first, answer } }) :
    next.WatchSound config := by
  have isBatches : tick.batches = first :: rest := by
    rw [WatchTick.batches, unjudged, isNext]
    rfl
  constructor
  · intro after judgement isTick isJudged
    cases isAfter.symm.trans isTick
    cases isJudged
    exact notKept
  · intro after isTick
    cases isAfter.symm.trans isTick
    have before := sound.covered tick watching
    rw [isBatches, ← sameStore] at before
    exact before
  · intro key row found reorged
    rw [sameStore] at found
    obtain ⟨_, isTick, batch, member, facts⟩ :=
      sound.restoring key row found reorged
    cases watching.symm.trans isTick
    rw [isBatches] at member
    exact ⟨_, isAfter, batch, member, facts⟩

/-- Marking the judged batch: the rows of its other tags wait for batches the
tick still has. -/
theorem watchSound_marked
    {judgement : Judgement}
    {invalidatedAt ingestedAt : Int}
    (sound : world.WatchSound config)
    (watching : world.posterWatch = some tick)
    (isJudged : tick.judged = some judgement)
    (reorged :
      reorgBatch config.chainId world.store judgement.batch
        invalidatedAt ingestedAt = .ok next.store)
    (settled : next.posterWatch = (tick.afterMark judgement).settle) :
    next.WatchSound config := by
  have isBatches :
      tick.batches = judgement.batch :: tick.candidates := by
    rw [WatchTick.batches, isJudged]
    rfl
  have remaining :
      ∀ (row : MessageRow) (batch : BatchRow),
        row.AttachedTo batch →
        ¬ row.AttachedTo judgement.batch →
        batch ∈ tick.batches →
        batch ∈ tick.candidates := by
    intro row batch attached unattached member
    rw [isBatches] at member
    rcases List.mem_cons.mp member with rfl | inRest
    · exact absurd attached unattached
    · exact inRest
  refine watchSound_of_settle settled ?_ ?_ ?_
  · intro other isOther
    cases isOther
  · intro batch member notKept key row found inTx
    have before :=
      message?_of_confirmed_reorgBatch reorged found
        (MessageRow.isConfirmedIn_iff.mp inTx).2.2
    obtain ⟨other, isOther, attached⟩ :=
      sound.covered tick watching batch
        (isBatches ▸ List.mem_cons_of_mem _ member) notKept key row
        before inTx
    refine ⟨other, remaining row other attached ?_ isOther, attached⟩
    intro ofJudged
    obtain ⟨-, ofChain, confirmed⟩ :=
      MessageRow.isConfirmedIn_iff.mp inTx
    have gone := not_isConfirmedIn_reorgBatch reorged found
    rw [MessageRow.isConfirmedIn_iff.mpr
      ⟨ofJudged.1, ofChain, confirmed⟩] at gone
    cases gone
  · intro key row found isReorged
    cases before : world.store.message? key with
    | none =>
        cases (message?_reorgBatch_of_none reorged before).symm.trans found
    | some old =>
        by_cases attached : old.AttachedTo judgement.batch
        · rcases message?_reorgBatch_of_attached reorged before attached
            with ⟨seq, after⟩ | ⟨kept, status⟩
          · cases after.symm.trans found
            cases isReorged
          · cases kept.symm.trans found
            rcases status with pending | ⟨confirmed, -⟩
            · cases pending.symm.trans isReorged
            · cases confirmed.symm.trans isReorged
        · have after :=
            message?_reorgBatch_of_not_attached reorged before attached
          by_cases inTx :
              old.isConfirmedIn config.chainId judgement.batch.txHash =
                true
          · rw [if_pos inTx] at after
            cases after.symm.trans found
            obtain ⟨other, isOther, ofOther⟩ :=
              sound.covered tick watching judgement.batch
                (isBatches ▸ List.mem_cons_self)
                (sound.judged tick judgement watching isJudged) key old
                before inTx
            have sameTx := (MessageRow.isConfirmedIn_iff.mp inTx).1
            rw [ofOther.1, Option.some.injEq] at sameTx
            refine ⟨other, remaining old other ofOther attached isOther,
              ofOther, ?_⟩
            rw [sameTx]
            exact List.mem_cons_self
          · rw [if_neg inTx] at after
            cases after.symm.trans found
            obtain ⟨_, isTick, other, isOther, ofOther, isMarked⟩ :=
              sound.restoring key row before isReorged
            cases watching.symm.trans isTick
            exact ⟨other, remaining row other ofOther attached isOther,
              ofOther, List.mem_cons_of_mem _ isMarked⟩

end WatchSteps

/-- An allowed step of the watcher keeps what its tick has to know. -/
theorem watchSound_watch
    {action : WatchAction}
    {outcome : WatchOutcome}
    (watching : world.Watching config)
    (allowed :
      watchesAllow config world (.poster (.watch action)) = true)
    (stepped :
      watchStep world
        (reorgCandidates config.chainId config.posterReorgWindow
          world.store)
        (fun invalidatedAt ingestedAt batch =>
          reorgBatch config.chainId world.store batch invalidatedAt
            ingestedAt)
        world.posterWatch action = some outcome) :
    World.WatchSound config
      { world with
        posterWatch := outcome.1
        store := outcome.2.1
        marks := outcome.2.2 } := by
  cases isWatch : world.posterWatch with
  | none =>
      rw [isWatch] at stepped
      have unreorged :
          ∀ key row,
            world.store.message? key = some row →
            row.status ≠ .reorged := by
        intro key row found reorged
        obtain ⟨tick, isTick, -⟩ :=
          watching.restoring key row found reorged
        cases isWatch.symm.trans isTick
      cases watchStep_cases stepped with
      | started head =>
          refine watchSound_of_settle rfl ?_ ?_ ?_
          · intro judgement isJudged
            cases isJudged
          · intro batch member _ key row found inTx
            exact covered_candidates watching member found inTx
          · intro key row found reorged
            exact absurd reorged (unreorged key row found)
  | some tick =>
      rw [isWatch] at stepped
      cases watchStep_cases stepped with
      | @kept _ batch rest answer block isNext unjudged truthful
          answered =>
          refine watchSound_kept watching.toWatchSound isWatch isNext
            unjudged ?_ rfl rfl
          simpa [watchesAllow, isWatch, isNext, answered] using allowed
      | @judged _ batch rest answer isNext unjudged truthful answered =>
          refine watchSound_judged watching.toWatchSound isWatch isNext
            unjudged ?_ rfl rfl
          simpa [watchesAllow, isWatch, isNext, answered] using allowed
      | marked isJudged reorged =>
          exact watchSound_marked watching.toWatchSound isWatch isJudged
            reorged rfl
      | @threw _ judgement invalidatedAt ingestedAt error isJudged
          failed =>
          obtain ⟨after, reorged⟩ :=
            watching.toLawful.reorgBatch_succeeds (by
              rw [isWatch]
              exact isJudged) invalidatedAt ingestedAt
          cases reorged.symm.trans failed
      | stopped =>
          refine watchSound_of_none rfl fun key row found => ?_
          exact unreorged_of_interruptible watching.restoring allowed found

theorem watching_sharedStep
    (watching : world.Watching config)
    (allowed : watchesAllow config world event = true)
    (taken : sharedStep config world event = some next) :
    next.Watching config := by
  have isStep :
      systemStep config world (.shared event) = some next :=
    taken
  have sound : next.WatchSound config := by
    by_cases isWatch : ∃ action, event = .poster (.watch action)
    · obtain ⟨action, rfl⟩ := isWatch
      obtain ⟨outcome, stepped, rfl⟩ := Option.map_eq_some_iff.mp taken
      exact watchSound_watch watching allowed stepped
    rcases posterWatch_systemStep isStep with
      same | ⟨isRestart, rfl⟩ | ⟨action, -, isEvent, -⟩
    · exact watchSound_of_unwatched watching allowed taken
        (fun action isEvent => isWatch ⟨action, isEvent⟩) same
    · cases isRestart
      refine watchSound_of_none rfl fun key row found => ?_
      exact unreorged_of_interruptible watching.restoring allowed found
    · cases isEvent
      exact absurd ⟨action, rfl⟩ isWatch
  exact {
    toLedger := ledger_sharedStep watching.toLedger taken
    toWatchSound := sound
    refer := refer_sharedStep watching.toLedger watching.refer taken
    located := located_sharedStep watching.located taken
    unsubmitted := unsubmitted_sharedStep watching.unsubmitted taken }

/-- Between watcher ticks every message of a broadcast is held. -/
theorem restored_of_watching
    (watching : world.Watching config) :
    world.Restored := by
  intro idle
  have unreorged :
      ∀ key row,
        world.store.message? key = some row →
        row.status ≠ .reorged := by
    intro key row found reorged
    obtain ⟨tick, isTick, -⟩ := watching.restoring key row found reorged
    cases idle.symm.trans isTick
  refine ⟨unreorged, ?_⟩
  intro broadcast member key carried
  obtain ⟨row, found⟩ :=
    Option.ne_none_iff_exists'.mp
      (watching.slots broadcast member key carried)
  refine ⟨row, found, ?_⟩
  cases status : row.status with
  | pending =>
      exact .inl rfl
  | submitted =>
      exact absurd status (watching.unsubmitted key row found)
  | confirmed =>
      obtain ⟨other, isOther, -, facts⟩ :=
        watching.confirmedRows key row found status
      exact .inr ⟨rfl, other, isOther, facts⟩
  | reorged =>
      exact absurd status (unreorged key row found)

end Steps

/-- In a run of a Poster beside a Reader's watcher, when the Poster's watcher
ticks give the batches of one transaction one answer and are not cut off between
them, and the Reader's watcher marks after the Poster's, no message stays
reorged after a tick: every message ever broadcast is pending, or confirmed in a
broadcast that carries it and is not marked. -/
theorem restored_of_watches
    {config : SystemConfig}
    {events : List SharedEvent}
    (allowed :
      Runs.AllSteps (sharedStep config)
        (fun world event => watchesAllow config world event = true)
        World.initial events) :
    Runs.AllStates (sharedStep config) World.Restored
      World.initial events := by
  apply Runs.AllStates.mono fun world => restored_of_watching
  exact Runs.allStates_of_invariant watching_sharedStep
    (watching_initial config) allowed

/-- Messages of two tags are confirmed in transaction 1, which is then gone. -/
def droppedPack (watch : List SharedEvent) : List SharedEvent :=
  let confirmed : List PosterEvent :=
    [sampleRequest 5 0 [3], sampleRequest 6 1 [4], .tickStart 0,
      .tickSend 0 (.accepted 1),
      .tickReceipt 1 (.ok
        { status := true, blockNumber := 100, transactionIndex := 0 }),
      .tickConfirm 1 0]
  confirmed.map .poster ++ watch

/-- A whole tick of the Poster's watcher over both tags. -/
def wholeTick : List SharedEvent :=
  [.start 100, .lookup .notFound, .mark 0 0, .lookup .notFound,
    .mark 0 0].map fun action => .poster (.watch action)

/-- A whole tick restores both messages, also before a tick of the Reader's
watcher. -/
theorem restored_of_whole_tick :
    Runs.AllStates (sharedStep sampleConfig) World.Restored World.initial
      (droppedPack (.readerWatch (.start 100) :: wholeTick ++
        [.readerWatch (.lookup .notFound), .readerWatch (.mark 0 0)])) :=
  restored_of_watches (by
    rw [sharedStep_sampleConfig]
    decide +kernel)

/-- A tick that stops between the two tags, or a Reader that marks first, leaves
a message reorged. -/
example :
    ∀ watch ∈ [
        [WatchAction.start 100, .lookup .notFound, .mark 0 0, .stop].map
          fun action => SharedEvent.poster (.watch action),
        [WatchAction.start 100, .lookup .notFound, .mark 0 0].map
          SharedEvent.readerWatch],
      ¬ Runs.AllStates (sharedStep sampleConfig) World.Restored
        World.initial (droppedPack watch) := by
  rw [sharedStep_sampleConfig]
  intro watch member all
  have view :
      ∀ watch ∈ [
        [WatchAction.start 100, .lookup .notFound, .mark 0 0, .stop].map
          fun action => SharedEvent.poster (.watch action),
        [WatchAction.start 100, .lookup .notFound, .mark 0 0].map
          SharedEvent.readerWatch],
      (Runs.exec? (sharedPlanStep sampleConfig) World.initial
        (droppedPack watch)).map (fun world =>
          (world.posterWatch,
            (world.store.message? (7, 1)).map MessageRow.status)) =
        some (none, some .reorged) := by
    decide +kernel
  obtain ⟨final, executed, isView⟩ :=
    Option.map_eq_some_iff.mp (view watch member)
  obtain ⟨idle, status⟩ := Prod.mk.inj isView
  obtain ⟨row, found, reorged⟩ := Option.map_eq_some_iff.mp status
  exact (all.final executed idle).1 (7, 1) row found reorged

end Bam
