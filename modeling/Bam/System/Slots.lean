import Bam.System.Steps

namespace Bam

/-!
# What a step does to a message slot

`SlotChange` lists what any step of a Poster and a Reader does to one slot of
the message table.  Invariants of the message rows are proved by cases over it.
-/

/-- A step of one of the watchers. -/
def SystemEvent.IsWatch : SystemEvent → Prop
  | .shared (.poster (.watch _)) => True
  | .shared (.readerWatch _) => True
  | _ => False

inductive SlotChange
    (config : SystemConfig)
    (world next : World)
    (key : MessageKey) : SystemEvent → Prop where
  | same
      {event : SystemEvent}
      (unchanged :
        next.store.message? key = world.store.message? key) :
      SlotChange config world next key event
  /-- An admissible message takes a slot that is free or reorged. -/
  | ingested
      {raw : RawEnvelope}
      {withinRateLimit : Bool}
      {now : Int}
      {decoded : DecodedMessage}
      {seq : Nat}
      (admissible : Admissible config.keccak256 config.ingest decoded)
      (isAccepted : decoded ∈ next.accepted)
      (after :
        next.store.message? key =
          some (pendingRowOf config.ingest decoded now seq).toMessageRow)
      (overReorged :
        ∀ old, world.store.message? key = some old →
          old.status = .reorged) :
      SlotChange config world next key
        (.shared (.poster (.ingest raw withinRateLimit now)))
  /-- A message of an included pack is confirmed over its row. -/
  | confirmed
      {broadcast : Broadcast}
      {receipt : TransactionReceipt}
      {submittedAt : Int}
      {entry : PackedSubmitIncludedEntry}
      {message : DecodedMessage}
      {position : Nat}
      {messageId : Bytes32}
      {old : MessageRow}
      (found : world.broadcasts.get? broadcast.txHash = some broadcast)
      (included : broadcast.phase = .included receipt)
      (recorded :
        next.broadcasts =
          world.broadcasts.put
            { broadcast with phase := .recorded receipt })
      (ofPack : entry ∈ submittedEntries broadcast.pack)
      (ofEntry : message ∈ entry.messages)
      (ofSlot : message.key = key)
      (before : world.store.message? key = some old)
      (sameHash : old.messageHash = message.messageHash)
      (unconfirmed : old.status ≠ .confirmed)
      (after :
        next.store.message? key =
          some (confirmedMessage config.loop
            (World.outcomeOf config broadcast receipt) entry.contentTag
            position message messageId old)) :
      SlotChange config world next key
        (.shared (.poster (.tickConfirm broadcast.txHash submittedAt)))
  /-- A Reader's batch confirms the message. -/
  | observed
      {opts : ProcessBatchOptions}
      {row : MessageRow}
      (confirmed : row.status = .confirmed)
      (ofChain : row.chainId = some config.chainId)
      (inRange : row.nonce ≤ MAX_NONCE)
      (after : next.store.message? key = some row) :
      SlotChange config world next key (.processBatch opts)
  /-- A watcher marks the transaction of a confirmed row. -/
  | marked
      {event : SystemEvent}
      {txHash : Bytes32}
      {old : MessageRow}
      (isWatch : event.IsWatch)
      (before : world.store.message? key = some old)
      (inTx : old.isConfirmedIn config.chainId txHash = true)
      (isMarked : txHash ∈ next.marked)
      (after : next.store.message? key = some old.markedReorged) :
      SlotChange config world next key event
  /-- The Poster's watcher re-enqueues the message of a dropped batch. -/
  | requeued
      {invalidatedAt ingestedAt : Int}
      {judgement : Judgement}
      {old : MessageRow}
      {seq : Nat}
      (isJudged :
        world.posterWatch.bind WatchTick.judged = some judgement)
      (before : world.store.message? key = some old)
      (attached : old.AttachedTo judgement.batch)
      (isMarked : judgement.batch.txHash ∈ next.marked)
      (after :
        next.store.message? key =
          some (requeuedMessage config.chainId
            judgement.batch.contentTag ingestedAt old seq)) :
      SlotChange config world next key
        (.shared (.poster (.watch (.mark invalidatedAt ingestedAt))))

section Changes

variable {config : SystemConfig}
variable {world next : World}

theorem slotChange_posterWatch
    {action : WatchAction}
    {outcome : WatchOutcome}
    (stepped :
      watchStep world
        (reorgCandidates config.chainId config.posterReorgWindow
          world.store)
        (fun invalidatedAt ingestedAt batch =>
          reorgBatch config.chainId world.store batch invalidatedAt
            ingestedAt)
        world.posterWatch action = some outcome)
    (isStore : next.store = outcome.2.1)
    (isMarks : next.marks = outcome.2.2)
    (key : MessageKey) :
    SlotChange config world next key
      (.shared (.poster (.watch action))) := by
  rcases watchStep_store stepped with
    ⟨sameStore, -⟩ |
      ⟨judgement, invalidatedAt, ingestedAt, _, isJudged, rfl, reorged,
        marks⟩
  · exact .same (by rw [isStore, sameStore])
  rw [← isStore] at reorged
  have isMarked : judgement.batch.txHash ∈ next.marked := by
    rw [World.marked, isMarks, marks]
    exact List.mem_cons_self
  cases before : world.store.message? key with
  | none =>
      refine .same ?_
      rw [before]
      exact message?_reorgBatch_of_none reorged before
  | some old =>
      by_cases attached : old.AttachedTo judgement.batch
      · rcases message?_reorgBatch_of_attached reorged before attached
          with ⟨seq, after⟩ | ⟨kept, -⟩
        · exact .requeued isJudged before attached isMarked after
        · exact .same (by rw [kept, before])
      · have after :=
          message?_reorgBatch_of_not_attached reorged before attached
        split at after
        · rename_i inTx
          exact .marked trivial before inTx isMarked after
        · exact .same (by rw [after, before])

theorem slotChange_posterStep
    {event : PosterEvent}
    (taken : posterStep config world event = some next)
    (key : MessageKey) :
    SlotChange config world next key (.shared (.poster event)) := by
  cases posterStep_cases taken with
  | quiet same =>
      exact .same (by rw [same.store])
  | ingested raw withinRateLimit now =>
      rcases message?_ingest config world raw withinRateLimit now key with
        same | ⟨decoded, seq, admissible, -, isAccepted, after,
          overReorged⟩
      · exact .same same
      · exact .ingested admissible isAccepted after overReorged
  | prepared read ticked nonempty same =>
      exact .same (by rw [same.store])
  | sent found isSent fresh unconfirmed same =>
      exact .same (by rw [same.store])
  | phased found leads arrived same =>
      exact .same (by rw [same.store])
  | confirmed found included committed =>
      rcases message?_confirmEntries committed key with
        same | ⟨entry, ofPack, message, ofEntry, position, messageId,
          old, ofSlot, before, sameHash, unconfirmed, after⟩
      · exact .same same
      · exact .confirmed found included rfl ofPack ofEntry ofSlot before
          sameHash unconfirmed after
  | restarted =>
      exact .same rfl
  | watched stepped =>
      exact slotChange_posterWatch stepped rfl rfl key
  | chained canonical =>
      exact .same rfl

theorem slotChange_readerWatch
    {action : WatchAction}
    (taken : world.readerWatchStep config action = some next)
    (key : MessageKey) :
    SlotChange config world next key
      (.shared (.readerWatch action)) := by
  obtain ⟨outcome, stepped, rfl⟩ := readerWatchStep_cases taken
  rcases watchStep_store stepped with
    ⟨sameStore, -⟩ |
      ⟨judgement, invalidatedAt, _, _, -, -, marked, marks⟩
  · exact .same (by rw [sameStore])
  have after := Store.message?_markReorged marked key
  cases before : world.store.message? key with
  | none =>
      refine .same ?_
      rw [after, before]
      rfl
  | some old =>
      rw [before, Option.map_some] at after
      split at after
      · rename_i inTx
        refine .marked trivial before inTx ?_ after
        rw [World.marked, marks]
        exact List.mem_cons_self
      · exact .same (by rw [after, before])

theorem slotChange_processBatch
    {opts : ProcessBatchOptions}
    (taken : systemStep config world (.processBatch opts) = some next)
    (key : MessageKey) :
    SlotChange config world next key (.processBatch opts) := by
  have ofChain : opts.chainId = config.chainId := by
    simp only [systemStep] at taken
    split at taken
    · assumption
    · cases taken
  obtain ⟨store, stepped, rfl⟩ := systemStep_processBatch taken
  have recorded := readerStep_processBatch stepped
  cases isRead : readSegment config.libraries opts with
  | none =>
      rw [isRead] at recorded
      exact .same (by rw [recorded])
  | some verified =>
      rw [isRead] at recorded
      obtain ⟨valid, isStore⟩ := recorded
      rcases Store.message?_recordBatch world.store
          (opts.batchRow config.libraries verified)
          (opts.messageRows config.libraries verified) key with
        same | ⟨row, member, -, after, -⟩
      · exact .same (by rw [isStore, same])
      · obtain ⟨confirmed, inRange, -⟩ :=
          mem_messageRows_valid valid member
        obtain ⟨entry, -, carries⟩ := carries_of_mem_messageRows member
        refine .observed confirmed ?_ inRange ?_
        · rw [carries.chainId, ← ofChain]
          rfl
        · rw [isStore]
          exact after

/-- Every step changes a slot in one of the listed ways. -/
theorem slotChange_systemStep
    {event : SystemEvent}
    (taken : systemStep config world event = some next)
    (key : MessageKey) :
    SlotChange config world next key event := by
  cases event with
  | shared event =>
      cases event with
      | poster event =>
          exact slotChange_posterStep taken key
      | readerWatch action =>
          exact slotChange_readerWatch taken key
  | processBatch opts =>
      exact slotChange_processBatch taken key

/-- A request, a step of the Reader's watcher and a Reader's batch leave the
Poster's watcher alone; a step of the Poster leaves it alone, forgets it, or is
a step of it. -/
theorem posterWatch_systemStep
    {event : SystemEvent}
    (taken : systemStep config world event = some next) :
    next.posterWatch = world.posterWatch ∨
      event = .shared (.poster .restart) ∧ next = world.restart ∨
      ∃ action outcome,
        event = .shared (.poster (.watch action)) ∧
        watchStep world
          (reorgCandidates config.chainId config.posterReorgWindow
            world.store)
          (fun invalidatedAt ingestedAt batch =>
            reorgBatch config.chainId world.store batch invalidatedAt
              ingestedAt)
          world.posterWatch action = some outcome ∧
        next.posterWatch = outcome.1 := by
  cases event with
  | shared event =>
      cases event with
      | poster event =>
          cases posterStep_cases taken with
          | quiet same =>
              exact .inl same.posterWatch
          | ingested raw withinRateLimit now =>
              exact .inl rfl
          | prepared read ticked nonempty same =>
              exact .inl same.posterWatch
          | sent found isSent fresh unconfirmed same =>
              exact .inl same.posterWatch
          | phased found leads arrived same =>
              exact .inl same.posterWatch
          | confirmed found included committed =>
              exact .inl rfl
          | restarted =>
              exact .inr (.inl ⟨rfl, rfl⟩)
          | watched stepped =>
              exact .inr (.inr ⟨_, _, rfl, stepped, rfl⟩)
          | chained canonical =>
              exact .inl rfl
      | readerWatch action =>
          obtain ⟨outcome, -, rfl⟩ := readerWatchStep_cases taken
          exact .inl rfl
  | processBatch opts =>
      obtain ⟨store, -, rfl⟩ := systemStep_processBatch taken
      exact .inl rfl

/-- No step drops a batch row. -/
theorem batchKept_systemStep
    {event : SystemEvent}
    (taken : systemStep config world event = some next)
    {key : BatchKey}
    (recorded : world.store.batch? key ≠ none) :
    next.store.batch? key ≠ none := by
  have ofMap :
      ∀ (store : Store) (change : BatchRow → BatchRow),
        store.batch? key = (world.store.batch? key).map change →
        store.batch? key ≠ none := by
    intro store change isMap isNone
    rw [isMap, Option.map_eq_none_iff] at isNone
    exact recorded isNone
  cases event with
  | shared event =>
      cases event with
      | poster event =>
          cases posterStep_cases taken with
          | quiet same =>
              exact same.store ▸ recorded
          | ingested raw withinRateLimit now =>
              rw [Store.batch?, batches_ingest]
              exact recorded
          | prepared read ticked nonempty same =>
              exact same.store ▸ recorded
          | sent found isSent fresh unconfirmed same =>
              exact same.store ▸ recorded
          | phased found leads arrived same =>
              exact same.store ▸ recorded
          | confirmed found included committed =>
              intro isNone
              rcases batch?_confirmIncluded committed key with
                ⟨⟨batch, isBatch, -⟩, -⟩ | same
              · cases isBatch.symm.trans isNone
              · rw [show Store.batch? _ key = none from isNone,
                  Option.map_none, eq_comm,
                  Option.map_eq_none_iff] at same
                exact recorded same
          | restarted =>
              exact recorded
          | watched stepped =>
              rcases watchStep_store stepped with
                ⟨sameStore, -⟩ | ⟨_, _, _, _, -, -, reorged, -⟩
              · exact sameStore ▸ recorded
              · exact ofMap _ _ (batch?_reorgBatch reorged key)
          | chained canonical =>
              exact recorded
      | readerWatch action =>
          obtain ⟨outcome, stepped, rfl⟩ := readerWatchStep_cases taken
          rcases watchStep_store stepped with
            ⟨sameStore, -⟩ | ⟨_, _, _, _, -, -, marked, -⟩
          · exact sameStore ▸ recorded
          · exact ofMap _ _ (Store.batch?_markReorged marked key)
  | processBatch opts =>
      obtain ⟨store, stepped, rfl⟩ := systemStep_processBatch taken
      have read := readerStep_processBatch stepped
      cases isRead : readSegment config.libraries opts with
      | none =>
          rw [isRead] at read
          exact read ▸ recorded
      | some verified =>
          rw [isRead] at read
          rw [read.2, Store.batch?_recordBatch, Store.batch?_upsertBatch]
          split
          · exact Option.some_ne_none _
          · exact recorded

/-- The batches a tick has judged or still has to look up. -/
def WatchTick.batches (tick : WatchTick) : List BatchRow :=
  (tick.judged.map Judgement.batch).toList ++ tick.candidates

/-- A watcher step works on the batches of its tick, or reads its
candidates. -/
theorem watchStep_batches
    {candidates : Nat → List BatchRow}
    {reorg : Int → Int → BatchRow → Except StoreError Store}
    {watch : Option WatchTick}
    {action : WatchAction}
    {outcome : WatchOutcome}
    (stepped :
      watchStep world candidates reorg watch action = some outcome)
    {after : WatchTick}
    (isAfter : outcome.1 = some after)
    {batch : BatchRow}
    (member : batch ∈ after.batches) :
    (∃ tick, watch = some tick ∧ batch ∈ tick.batches) ∨
      ∃ head, batch ∈ candidates head := by
  cases watchStep_cases stepped with
  | started head =>
      rw [settle_eq_some isAfter] at member
      exact .inr ⟨head, member⟩
  | @kept tick first rest answer block next unjudged truthful answered =>
      rw [settle_eq_some isAfter] at member
      refine .inl ⟨tick, rfl, ?_⟩
      rw [WatchTick.batches, unjudged] at member ⊢
      rw [next]
      exact List.mem_cons_of_mem first member
  | @judged tick first rest answer next unjudged truthful answered =>
      cases isAfter
      refine .inl ⟨tick, rfl, ?_⟩
      rw [WatchTick.batches, unjudged, next]
      exact member
  | @marked tick judgement invalidatedAt ingestedAt next isJudged
      reorged =>
      rw [settle_eq_some isAfter] at member
      exact .inl ⟨tick, rfl, List.mem_append_right _ member⟩
  | threw isJudged failed =>
      cases isAfter
  | stopped tick =>
      cases isAfter

/-- What every step keeps: rows are of the system's chain with nonces in range,
and the Poster's watcher works on batches of the store. -/
structure World.Lawful
    (config : SystemConfig)
    (world : World) : Prop where
  rows :
    ∀ key row, world.store.message? key = some row →
      row.chainId = some config.chainId ∧ row.nonce ≤ MAX_NONCE
  watched :
    ∀ tick, world.posterWatch = some tick →
      ∀ batch ∈ tick.batches,
        batch.chainId = config.chainId ∧
          world.store.batch? batch.key ≠ none

theorem lawful_initial
    (config : SystemConfig) :
    World.initial.Lawful config where
  rows := by
    intro key row found
    cases found
  watched := by
    intro tick watching
    cases watching

/-- A step keeps rows of the system's chain. -/
theorem lawfulRows_systemStep
    {event : SystemEvent}
    (lawful : world.Lawful config)
    (taken : systemStep config world event = some next)
    (key : MessageKey)
    (row : MessageRow)
    (found : next.store.message? key = some row) :
    row.chainId = some config.chainId ∧ row.nonce ≤ MAX_NONCE := by
  have sameNonce :
      ∀ old, world.store.message? key = some old →
        row.nonce = old.nonce := by
    intro old before
    have sameKey : row.key = old.key :=
      (Store.key_of_message? found).trans
        (Store.key_of_message? before).symm
    exact congrArg Prod.snd sameKey
  cases slotChange_systemStep taken key with
  | same unchanged =>
      exact lawful.rows key row (unchanged.symm.trans found)
  | ingested admissible isAccepted after overReorged =>
      cases after.symm.trans found
      exact ⟨rfl, admissible.nonce⟩
  | confirmed isBroadcast included recorded ofPack ofEntry ofSlot before
      sameHash unconfirmed after =>
      have inRange := (lawful.rows key _ before).2
      rw [← sameNonce _ before] at inRange
      cases after.symm.trans found
      exact ⟨rfl, inRange⟩
  | observed confirmed ofChain inRange after =>
      cases after.symm.trans found
      exact ⟨ofChain, inRange⟩
  | marked isWatch before inTx isMarked after =>
      have sound := lawful.rows key _ before
      cases after.symm.trans found
      exact sound
  | requeued isJudged before attached isMarked after =>
      have sound := lawful.rows key _ before
      cases after.symm.trans found
      exact ⟨rfl, sound.2⟩

/-- Every step keeps a world lawful. -/
theorem lawful_systemStep
    {event : SystemEvent}
    (lawful : world.Lawful config)
    (taken : systemStep config world event = some next) :
    next.Lawful config where
  rows := lawfulRows_systemStep lawful taken
  watched := by
    intro after isAfter batch member
    rcases posterWatch_systemStep taken with
      same | ⟨-, isRestart⟩ |
        ⟨action, outcome, -, stepped, isOutcome⟩
    · obtain ⟨ofChain, recorded⟩ :=
        lawful.watched after (same ▸ isAfter) batch member
      exact ⟨ofChain, batchKept_systemStep taken recorded⟩
    · subst isRestart
      cases isAfter
    · rcases watchStep_batches stepped (isOutcome ▸ isAfter) member with
        ⟨tick, watching, ofTick⟩ | ⟨head, candidate⟩
      · obtain ⟨ofChain, recorded⟩ :=
          lawful.watched tick watching batch ofTick
        exact ⟨ofChain, batchKept_systemStep taken recorded⟩
      · obtain ⟨inStore, ofChain, -⟩ := mem_reorgCandidates.mp candidate
        refine ⟨ofChain, batchKept_systemStep taken ?_⟩
        rw [Store.batch?, Table.mem_rows_iff.mp inStore]
        exact Option.some_ne_none _

/-- The batch the Poster's watcher has judged can be marked. -/
theorem World.Lawful.reorgBatch_succeeds
    (lawful : world.Lawful config)
    {judgement : Judgement}
    (isJudged :
      world.posterWatch.bind WatchTick.judged = some judgement)
    (invalidatedAt ingestedAt : Int) :
    ∃ after,
      reorgBatch config.chainId world.store judgement.batch
        invalidatedAt ingestedAt = .ok after := by
  obtain ⟨tick, watching, ofTick⟩ := Option.bind_eq_some_iff.mp isJudged
  obtain ⟨ofChain, isRecorded⟩ :=
    lawful.watched tick watching judgement.batch (by
      rw [WatchTick.batches, ofTick]
      exact List.mem_cons_self)
  obtain ⟨recorded, found⟩ := Option.ne_none_iff_exists'.mp isRecorded
  have sameKey := Store.key_of_batch? found
  refine @Bam.reorgBatch_succeeds config.chainId world.store
    judgement.batch recorded (Table.mem_of_get? found) ?_ ?_
    invalidatedAt ingestedAt
  · simp only [BatchRow.key, Prod.mk.injEq] at sameKey
    exact BatchRow.isOf_iff.mpr
      ⟨sameKey.1.trans ofChain, sameKey.2.1⟩
  · intro row member
    exact (lawful.rows row.key row (Table.mem_rows_iff.mp member)).2

end Changes

end Bam
