import Bam.System.NonceTracker
import Bam.System.Requeue

namespace Bam

/-!
# What becomes of an accepted message

Ingest answers `accepted` to a new message and to a retry of the newest one of
its sender.  The nonce tracker keeps a slot from being taken twice, so every
accepted message keeps a row with its hash, through confirmation, marks and
re-enqueues.
-/

/-- Every accepted message has a row with its hash. -/
def World.AcceptedStored (world : World) : Prop :=
  ∀ message ∈ world.accepted,
    ∃ row,
      world.store.message? message.key = some row ∧
        row.messageHash = message.messageHash

/-- The tracker of a sender is ahead of its rows, and stands at one of them. -/
structure World.Tracked (world : World) : Prop where
  ahead :
    ∀ key row,
      world.store.message? key = some row →
      ∃ tracker,
        world.store.getNonce key.1 = some tracker ∧
          key.2 ≤ tracker.lastNonce
  latest :
    ∀ sender tracker,
      world.store.getNonce sender = some tracker →
      ∃ row,
        world.store.message? (sender, tracker.lastNonce) = some row ∧
          row.messageHash = tracker.lastMessageHash
  accepted : world.AcceptedStored

theorem tracked_initial : World.initial.Tracked where
  ahead := by
    intro key row found
    cases found
  latest := by
    intro sender tracker found
    cases found
  accepted := by
    intro message member
    cases member

section Steps

variable {config : SystemConfig}
variable {world next : World}

/-- Over tracked rows the lazy seed of a tracker is never used. -/
theorem World.Tracked.seed
    (tracked : world.Tracked)
    (sender : Address) :
    (world.store.getNonce sender).or
        (world.store.getMaxNonReorgedNonce sender) =
      world.store.getNonce sender := by
  cases isTracker : world.store.getNonce sender with
  | some tracker =>
      rfl
  | none =>
      rw [Option.none_or]
      cases isSeed : world.store.getMaxNonReorgedNonce sender with
      | none =>
          rfl
      | some seed =>
          obtain ⟨-, row, member, rfl, -⟩ :=
            Store.getMaxNonReorgedNonce_some isSeed
          obtain ⟨tracker, found, -⟩ :=
            tracked.ahead row.key row (Table.mem_rows_iff.mp member)
          cases isTracker.symm.trans found

/-- A step other than ingest takes no free slot and keeps every hash. -/
theorem hashes_sharedStep
    {event : SharedEvent}
    (taken : sharedStep config world event = some next)
    (notIngest : ∀ raw withinRateLimit now,
      event ≠ .poster (.ingest raw withinRateLimit now))
    (key : MessageKey) :
    (next.store.message? key).map MessageRow.messageHash =
      (world.store.message? key).map MessageRow.messageHash := by
  have isStep :
      systemStep config world (.shared event) = some next :=
    taken
  cases slotChange_systemStep isStep key with
  | same unchanged =>
      rw [unchanged]
  | ingested admissible isAccepted after overReorged =>
      exact absurd rfl (notIngest _ _ _)
  | confirmed isFound included recorded ofPack ofEntry ofSlot before
      sameHash unconfirmed after =>
      rw [after, before, Option.map_some, Option.map_some, sameHash]
      rfl
  | marked isWatch before inTx isMarked after =>
      rw [after, before]
      rfl
  | requeued isJudged before attached isMarked after =>
      rw [after, before]
      rfl

/-- Tracked rows depend on the slots' hashes and the trackers only. -/
theorem World.Tracked.of_hashes
    (tracked : world.Tracked)
    (hashes :
      ∀ key,
        (next.store.message? key).map MessageRow.messageHash =
          (world.store.message? key).map MessageRow.messageHash)
    (nonces :
      ∀ sender,
        next.store.getNonce sender = world.store.getNonce sender)
    (accepted :
      ∀ message ∈ next.accepted,
        message ∈ world.accepted ∨
          ∃ row,
            world.store.message? message.key = some row ∧
              row.messageHash = message.messageHash) :
    next.Tracked := by
  have kept :
      ∀ {key : MessageKey} {row : MessageRow} {hash : Bytes32},
        world.store.message? key = some row →
        row.messageHash = hash →
        ∃ after,
          next.store.message? key = some after ∧
            after.messageHash = hash := by
    intro key row hash found isHash
    have same := hashes key
    rw [found, Option.map_some, isHash] at same
    exact Option.map_eq_some_iff.mp same
  constructor
  · intro key row found
    rw [nonces]
    have same := hashes key
    rw [found, Option.map_some, eq_comm] at same
    obtain ⟨old, before, -⟩ := Option.map_eq_some_iff.mp same
    exact tracked.ahead key old before
  · intro sender tracker found
    rw [nonces] at found
    obtain ⟨row, isRow, isHash⟩ := tracked.latest sender tracker found
    exact kept isRow isHash
  · intro message member
    rcases accepted message member with before | ⟨row, found, isHash⟩
    · obtain ⟨row, found, isHash⟩ := tracked.accepted message before
      exact kept found isHash
    · exact kept found isHash

/-- Only ingest accepts. -/
theorem accepted_sharedStep
    {event : SharedEvent}
    (taken : sharedStep config world event = some next)
    (notIngest : ∀ raw withinRateLimit now,
      event ≠ .poster (.ingest raw withinRateLimit now)) :
    next.accepted = world.accepted := by
  cases event with
  | readerWatch action =>
      obtain ⟨outcome, -, rfl⟩ := readerWatchStep_cases taken
      rfl
  | poster event =>
      cases posterStep_cases taken with
      | quiet same =>
          exact same.accepted
      | ingested raw withinRateLimit now =>
          exact absurd rfl (notIngest raw withinRateLimit now)
      | prepared read ticked nonempty same =>
          exact same.accepted
      | sent found isSent fresh unconfirmed same =>
          exact same.accepted
      | phased found leads arrived same =>
          exact same.accepted
      | confirmed found included committed =>
          rfl
      | restarted =>
          rfl
      | watched stepped =>
          rfl
      | chained canonical =>
          rfl

/-- A message that is inserted takes a free slot, which nothing tracked
before. -/
theorem tracked_inserted
    {decoded : DecodedMessage}
    {now : Int}
    {seq : Nat}
    {after : Store}
    (tracked : world.Tracked)
    (isNew :
      ∀ tracker,
        world.store.getNonce decoded.sender = some tracker →
        tracker.lastNonce < decoded.nonce)
    (messages :
      after.messages =
        world.store.messages.put
          (pendingRowOf config.ingest decoded now seq).toMessageRow)
    (tracker :
      after.getNonce decoded.sender =
        some { sender := decoded.sender
               lastNonce := decoded.nonce
               lastMessageHash := decoded.messageHash })
    (others :
      ∀ sender ≠ decoded.sender,
        after.getNonce sender = world.store.getNonce sender) :
    World.Tracked
      { world with
        store := after
        accepted := decoded :: world.accepted } := by
  have inserted :
      after.message? decoded.key =
        some (pendingRowOf config.ingest decoded now seq).toMessageRow := by
    rw [Store.message?, messages]
    exact Table.get?_put_self _ _
  have otherSlot :
      ∀ key ≠ decoded.key, after.message? key = world.store.message? key := by
    intro key differs
    rw [Store.message?, messages, Table.get?_put, Store.message?]
    exact if_neg fun same => differs same.symm
  have slotFree : world.store.message? decoded.key = none := by
    cases found : world.store.message? decoded.key with
    | none =>
        rfl
    | some row =>
        obtain ⟨old, isOld, behind⟩ :=
          tracked.ahead decoded.key row found
        exact absurd behind (Nat.not_le.mpr (isNew old isOld))
  constructor
  · intro key row found
    by_cases ofSender : key.1 = decoded.sender
    · rw [ofSender]
      refine ⟨_, tracker, ?_⟩
      by_cases ofSlot : key = decoded.key
      · rw [ofSlot]
        exact Nat.le_refl _
      · obtain ⟨old, isOld, behind⟩ :=
          tracked.ahead key row ((otherSlot key ofSlot).symm.trans found)
        rw [ofSender] at isOld
        exact behind.trans (isNew old isOld).le
    · have differs : key ≠ decoded.key :=
        fun same => ofSender (congrArg Prod.fst same)
      rw [others key.1 ofSender]
      exact tracked.ahead key row
        ((otherSlot key differs).symm.trans found)
  · intro sender last found
    by_cases ofSender : sender = decoded.sender
    · subst ofSender
      cases tracker.symm.trans found
      exact ⟨_, inserted, rfl⟩
    · rw [others sender ofSender] at found
      obtain ⟨row, isRow, isHash⟩ := tracked.latest sender last found
      refine ⟨row, (otherSlot _ ?_).trans isRow, isHash⟩
      exact fun same => ofSender (congrArg Prod.fst same)
  · intro message member
    rcases List.mem_cons.mp member with rfl | before
    · exact ⟨_, inserted, rfl⟩
    · obtain ⟨row, found, isHash⟩ := tracked.accepted message before
      refine ⟨row, (otherSlot _ ?_).trans found, isHash⟩
      intro same
      rw [same, slotFree] at found
      cases found

/-- What inserts a message answers `accepted`. -/
theorem accepted_of_insertsNew
    {opts : IngestPipelineOptions}
    {store after : Store}
    {decoded : DecodedMessage}
    {now : Int}
    {result : SubmitResult}
    (committed : ingestTxn opts store decoded now = .ok (after, result))
    (inserts : insertsNew opts store decoded now = true) :
    ∃ hash, result = .accepted hash := by
  rw [insertsNew, committed] at inserts
  split at inserts
  · rename_i hash isChecked isCommitted
    cases isCommitted
    exact ⟨_, rfl⟩
  · cases inserts

theorem tracked_ingest
    (tracked : world.Tracked)
    (raw : RawEnvelope)
    (withinRateLimit : Bool)
    (now : Int) :
    (world.ingest config raw withinRateLimit now).Tracked := by
  rcases ingest_cases config world raw withinRateLimit now with
    same | ⟨decoded, after, result, -, -, -, -, committed, isNext⟩
  · rw [same]
    exact tracked
  rw [isNext]
  obtain ⟨seeded, outcome, checked, ending⟩ := ingestTxn_cases committed
  obtain ⟨-, -, -, -, ofSender, ofOthers⟩ := checkMonotonicity_ok checked
  rw [tracked.seed] at ofSender
  have seededNonces :
      ∀ sender, seeded.getNonce sender = world.store.getNonce sender := by
    intro sender
    by_cases isSender : sender = decoded.sender
    · rw [isSender]
      exact ofSender
    · exact ofOthers sender isSender
  rcases (ingestTxn_ok committed).2 with
    ⟨sameMessages, retried⟩ |
      ⟨-, isAccepted, ⟨seq, messages⟩, -, -, isNew⟩
  · -- a retry: the newest message of the sender, whose row is kept
    rcases ending with ⟨-, rfl⟩ | ⟨inserts, -, -⟩
    · refine tracked.of_hashes (fun key => ?_) seededNonces ?_
      · rw [Store.message?, sameMessages]
        rfl
      · intro message member
        cases result with
        | rejected reason =>
            exact .inl member
        | accepted hash =>
            rcases List.mem_cons.mp member with rfl | before
            · obtain ⟨-, tracker, found, sameNonce, sameHash⟩ :=
                retried hash rfl
              rw [tracked.seed] at found
              obtain ⟨row, isRow, isHash⟩ :=
                tracked.latest _ tracker found
              rw [sameNonce] at isRow
              exact .inr ⟨row, isRow, isHash.trans sameHash⟩
            · exact .inl before
    · obtain ⟨hash, isAccepted⟩ := accepted_of_insertsNew committed inserts
      obtain ⟨-, tracker, found, sameNonce, -⟩ := retried hash isAccepted
      rw [tracked.seed] at found
      have behind := (ingestTxn_advances committed inserts).1 tracker found
      exact absurd sameNonce behind.ne
  · rw [tracked.seed] at isNew
    rcases ending with ⟨unchanged, -⟩ | ⟨-, -, nonces⟩
    · have sameMessages := (ingestTxn_keeps committed unchanged).1
      have found :
          world.store.message? decoded.key =
            some (pendingRowOf config.ingest decoded now seq).toMessageRow := by
        rw [Store.message?, ← sameMessages, messages]
        exact Table.get?_put_self _ _
      obtain ⟨tracker, isTracker, behind⟩ := tracked.ahead _ _ found
      exact absurd behind (Nat.not_le.mpr (isNew tracker isTracker))
    · rw [isAccepted]
      apply tracked_inserted tracked isNew messages
      · rw [Store.getNonce, nonces]
        exact Table.get?_put_self _ _
      · intro sender differs
        rw [← seededNonces sender, Store.getNonce, nonces, Table.get?_put,
          Store.getNonce]
        exact if_neg fun same => differs same.symm

theorem tracked_sharedStep
    {event : SharedEvent}
    (tracked : world.Tracked)
    (taken : sharedStep config world event = some next) :
    next.Tracked := by
  by_cases isIngest :
      ∃ raw withinRateLimit now,
        event = .poster (.ingest raw withinRateLimit now)
  · obtain ⟨raw, withinRateLimit, now, rfl⟩ := isIngest
    cases taken
    exact tracked_ingest tracked raw withinRateLimit now
  · simp only [not_exists] at isIngest
    have isStep :
        systemStep config world (.shared event) = some next :=
      taken
    have sameNonces : next.store.nonces = world.store.nonces := by
      apply nonces_systemStep isStep
      intro raw withinRateLimit now same
      exact isIngest raw withinRateLimit now (SystemEvent.shared.inj same)
    refine tracked.of_hashes (hashes_sharedStep taken isIngest) ?_ ?_
    · intro sender
      rw [Store.getNonce, sameNonces, Store.getNonce]
    · intro message member
      rw [accepted_sharedStep taken isIngest] at member
      exact .inl member

end Steps

/-- Over runs of Poster and of the Reader's watcher: every message that was
ever answered `accepted` keeps a row with its hash. -/
theorem acceptedStored_run
    (config : SystemConfig)
    (events : List SharedEvent) :
    Runs.AllStates (sharedStep config) World.AcceptedStored World.initial
      events := by
  apply Runs.AllStates.mono fun world => World.Tracked.accepted
  exact Runs.allStates_of_invariant
    (fun tracked _ taken => tracked_sharedStep tracked taken)
    tracked_initial
    (@Runs.AllSteps.of_forall _ _ _ (fun _ _ => True)
      (fun _ _ => trivial) _ _)

/-- While no watcher tick runs, every accepted message is queued for the next
broadcast, or confirmed in one that is not marked. -/
def World.AcceptedHeld (world : World) : Prop :=
  world.posterWatch = none →
    ∀ message ∈ world.accepted,
      ∃ row,
        world.store.message? message.key = some row ∧
          row.messageHash = message.messageHash ∧
          (row.status = .pending ∨
            row.status = .confirmed ∧
              ∃ broadcast ∈ world.broadcasts.rows,
                row.batchRef = some broadcast.txHash ∧
                  message.key ∈ broadcast.pack.keys ∧
                  broadcast.txHash ∉ world.marked)

/-- A tracked message under restoring watchers is held. -/
theorem acceptedHeld_of_watching
    {config : SystemConfig}
    {world : World}
    (tracked : world.Tracked)
    (watching : world.Watching config) :
    world.AcceptedHeld := by
  intro idle message member
  obtain ⟨row, found, sameHash⟩ := tracked.accepted message member
  refine ⟨row, found, sameHash, ?_⟩
  cases status : row.status with
  | pending =>
      exact .inl rfl
  | submitted =>
      exact absurd status (watching.unsubmitted _ row found)
  | confirmed =>
      obtain ⟨broadcast, isBroadcast, -, facts⟩ :=
        watching.confirmedRows _ row found status
      exact .inr ⟨rfl, broadcast, isBroadcast, facts⟩
  | reorged =>
      obtain ⟨tick, isTick, -⟩ := watching.restoring _ row found status
      cases idle.symm.trans isTick

/-- No accepted message is lost: in a run whose watcher ticks restore what they
mark, every message ever answered `accepted` stands, between ticks, as pending
or as confirmed in an unmarked broadcast that carries it. -/
theorem accepted_held
    {config : SystemConfig}
    {events : List SharedEvent}
    (allowed :
      Runs.AllSteps (sharedStep config)
        (fun world event => watchesAllow config world event = true)
        World.initial events) :
    Runs.AllStates (sharedStep config) World.AcceptedHeld
      World.initial events := by
  have both :
      Runs.AllStates (sharedStep config)
        (fun world => world.Tracked ∧ world.Watching config)
        World.initial events :=
    Runs.allStates_of_invariant
      (fun invariant allows taken =>
        ⟨tracked_sharedStep invariant.1 taken,
          watching_sharedStep invariant.2 allows taken⟩)
      ⟨tracked_initial, watching_initial config⟩ allowed
  exact both.mono fun world invariant =>
    acceptedHeld_of_watching invariant.1 invariant.2

/-- The two messages of a dropped pack, across a whole watcher tick. -/
theorem accepted_held_whole_tick :
    Runs.AllStates (sharedStep sampleConfig) World.AcceptedHeld
      World.initial (droppedPack wholeTick) :=
  accepted_held (by
    rw [sharedStep_sampleConfig]
    decide +kernel)

end Bam
