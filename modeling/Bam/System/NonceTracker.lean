import Bam.System.Sharing
import Bam.System.Steps

namespace Bam

/-!
# The nonce tracker over runs

What an ingest call does to the tracker and to the message rows, and what any
interleaving of such calls with the other steps of Poster and Reader leaves of
it: tracked nonces grow, and so do the nonces of the messages newly accepted.
-/

/-- The ingest transaction inserts its message: monotonicity lets it through
and the transaction accepts it. -/
def insertsNew
    (opts : IngestPipelineOptions)
    (store : Store)
    (decoded : DecodedMessage)
    (now : Int) : Bool :=
  match checkMonotonicity store decoded.sender decoded.nonce
      decoded.messageHash, ingestTxn opts store decoded now with
  | .ok (_, .accept), .ok (_, .accepted _) => true
  | _, _ => false

/-- The message a step newly accepts; `none` for a call that is rejected or
retried and for every other step. -/
def newlyAccepted
    (config : SystemConfig)
    (world : World) : SystemEvent → Option DecodedMessage
  | .shared (.poster (.ingest raw withinRateLimit now)) =>
      (admittedMessage config.keccak256 config.ingest raw
        withinRateLimit).filter fun decoded =>
          insertsNew config.ingest world.store decoded now
  | _ => none

/-- The messages a run newly accepts, in order. -/
def newAcceptances
    (config : SystemConfig) :
    World → List SystemEvent → List DecodedMessage
  | _, [] => []
  | world, event :: rest =>
      match systemStep config world event with
      | none => []
      | some next =>
          (newlyAccepted config world event).toList ++
            newAcceptances config next rest

section Transaction

variable {opts : IngestPipelineOptions}
variable {store next : Store}
variable {decoded : DecodedMessage}
variable {now : Int}
variable {result : SubmitResult}

/-- The transaction ends with the seeded tracker, or it inserts its message and
the tracker follows. -/
theorem ingestTxn_cases
    (committed : ingestTxn opts store decoded now = .ok (next, result)) :
    ∃ seeded outcome,
      checkMonotonicity store decoded.sender decoded.nonce
          decoded.messageHash = .ok (seeded, outcome) ∧
      (insertsNew opts store decoded now = false ∧ next = seeded ∨
        insertsNew opts store decoded now = true ∧ outcome = .accept ∧
          next.nonces =
            seeded.nonces.put
              { sender := decoded.sender
                lastNonce := decoded.nonce
                lastMessageHash := decoded.messageHash }) := by
  rw [insertsNew, committed]
  rw [ingestTxn] at committed
  cases checked :
      checkMonotonicity store decoded.sender decoded.nonce
        decoded.messageHash with
  | error error =>
      rw [checked] at committed
      cases committed
  | ok answer =>
      obtain ⟨seeded, outcome⟩ := answer
      refine ⟨seeded, outcome, rfl, ?_⟩
      rw [checked] at committed
      cases outcome with
      | reject reason =>
          cases committed
          exact .inl ⟨rfl, rfl⟩
      | no_op existing =>
          cases committed
          exact .inl ⟨rfl, rfl⟩
      | accept =>
          dsimp only at committed
          split at committed
          · cases committed
            exact .inl ⟨rfl, rfl⟩
          · split at committed
            · cases committed
            · rename_i tracked set
              split at committed
              · cases committed
              · rename_i inserted isInserted
                cases committed
                obtain ⟨-, rfl⟩ := Store.setNonce_ok set
                obtain ⟨-, rfl, -⟩ := Store.insertPending_ok isInserted
                exact .inr ⟨rfl, rfl, rfl⟩

/-- A transaction that inserts nothing leaves the message rows alone, and the
tracker but for its lazy seeding. -/
theorem ingestTxn_keeps
    (committed : ingestTxn opts store decoded now = .ok (next, result))
    (unchanged : insertsNew opts store decoded now = false) :
    next.messages = store.messages ∧
      next.getNonce decoded.sender =
        (store.getNonce decoded.sender).or
          (store.getMaxNonReorgedNonce decoded.sender) := by
  obtain ⟨seeded, outcome, checked, ⟨-, rfl⟩ | ⟨inserts, -⟩⟩ :=
    ingestTxn_cases committed
  · obtain ⟨sameMessages, -, -, -, tracked, -⟩ :=
      checkMonotonicity_ok checked
    exact ⟨sameMessages, tracked⟩
  · rw [unchanged] at inserts
    cases inserts

/-- A transaction that inserts its message was ahead of the tracker, and the
tracker follows. -/
theorem ingestTxn_advances
    (committed : ingestTxn opts store decoded now = .ok (next, result))
    (inserts : insertsNew opts store decoded now = true) :
    (∀ row, store.getNonce decoded.sender = some row →
        row.lastNonce < decoded.nonce) ∧
      ∃ row,
        next.getNonce decoded.sender = some row ∧
          row.lastNonce = decoded.nonce := by
  obtain ⟨seeded, outcome, checked, ⟨unchanged, -⟩ |
      ⟨-, rfl, stored⟩⟩ :=
    ingestTxn_cases committed
  · rw [inserts] at unchanged
    cases unchanged
  · obtain ⟨-, -, -, decided, -, -⟩ := checkMonotonicity_ok checked
    constructor
    · intro row isTracked
      rw [isTracked, Option.some_or, decideMonotonicity] at decided
      split at decided
      · assumption
      · split at decided
        · split at decided <;> cases decided
        · cases decided
    · rw [Store.getNonce, stored]
      exact ⟨_, Table.get?_put_self _ _, rfl⟩

/-- The tracker of another sender is left alone. -/
theorem ingestTxn_otherSender
    {other : Address}
    (committed : ingestTxn opts store decoded now = .ok (next, result))
    (differs : other ≠ decoded.sender) :
    next.getNonce other = store.getNonce other := by
  obtain ⟨seeded, outcome, checked, ending⟩ := ingestTxn_cases committed
  obtain ⟨-, -, -, -, -, others⟩ := checkMonotonicity_ok checked
  rw [← others other differs]
  rcases ending with ⟨-, rfl⟩ | ⟨-, -, stored⟩
  · rfl
  · rw [Store.getNonce, stored, Table.get?_put, if_neg differs.symm,
      Store.getNonce]

end Transaction

section Steps

variable {config : SystemConfig}
variable {world next : World}

/-- An admitted call ends its transaction or leaves the store alone. -/
theorem ingest_admitted
    {raw : RawEnvelope}
    {withinRateLimit : Bool}
    {decoded : DecodedMessage}
    (now : Int)
    (admitted :
      admittedMessage config.keccak256 config.ingest raw withinRateLimit =
        some decoded) :
    (∃ result,
        ingestTxn config.ingest world.store decoded now =
          .ok ((world.ingest config raw withinRateLimit now).store,
            result)) ∨
      insertsNew config.ingest world.store decoded now = false ∧
        (world.ingest config raw withinRateLimit now).store =
          world.store := by
  have answered :=
    ingest_eq config.keccak256 config.ingest raw withinRateLimit
  rw [admitted] at answered
  have isStore :
      (world.ingest config raw withinRateLimit now).store =
        (afterIngestTxn world.store
          (ingestTxn config.ingest world.store decoded now)).1 :=
    congrArg Prod.fst (answered world.store now)
  rw [isStore, insertsNew]
  cases ingestTxn config.ingest world.store decoded now with
  | ok answer =>
      exact .inl ⟨answer.2, rfl⟩
  | error error =>
      refine .inr ⟨?_, ?_⟩
      · split
        · rename_i isOk
          cases isOk
        · rfl
      · cases error <;> rfl

/-- A call that accepts nothing new leaves the message rows and every tracked
nonce alone. -/
theorem ingest_keeps
    {raw : RawEnvelope}
    {withinRateLimit : Bool}
    {now : Int}
    (nothing :
      newlyAccepted config world
        (.shared (.poster (.ingest raw withinRateLimit now))) = none) :
    (world.ingest config raw withinRateLimit now).store.messages =
        world.store.messages ∧
      ∀ sender row, world.store.getNonce sender = some row →
        (world.ingest config raw withinRateLimit now).store.getNonce
            sender = some row := by
  cases admitted :
      admittedMessage config.keccak256 config.ingest raw
        withinRateLimit with
  | none =>
      have answered :=
        ingest_eq config.keccak256 config.ingest raw withinRateLimit
      rw [admitted] at answered
      obtain ⟨reason, rejected⟩ := answered
      have isStore :
          (world.ingest config raw withinRateLimit now).store =
            world.store :=
        congrArg Prod.fst (rejected world.store now)
      rw [isStore]
      exact ⟨rfl, fun _ _ tracked => tracked⟩
  | some decoded =>
      have unchanged :
          insertsNew config.ingest world.store decoded now = false := by
        rw [newlyAccepted, admitted, Option.filter_some] at nothing
        split at nothing
        · cases nothing
        · rename_i notNew
          exact Bool.eq_false_of_not_eq_true notNew
      rcases @ingest_admitted config world _ _ _ now admitted with
        ⟨result, committed⟩ | ⟨-, same⟩
      · obtain ⟨sameMessages, seeded⟩ :=
          ingestTxn_keeps committed unchanged
        refine ⟨sameMessages, ?_⟩
        intro sender row tracked
        by_cases ofSender : sender = decoded.sender
        · subst ofSender
          rw [seeded, tracked, Option.some_or]
        · rw [ingestTxn_otherSender committed ofSender, tracked]
      · rw [same]
        exact ⟨rfl, fun _ _ tracked => tracked⟩

/-- A newly accepted message was ahead of its sender's tracker, and the tracker
follows it; other trackers are left alone. -/
theorem ingest_advances
    {raw : RawEnvelope}
    {withinRateLimit : Bool}
    {now : Int}
    {message : DecodedMessage}
    (accepted :
      newlyAccepted config world
        (.shared (.poster (.ingest raw withinRateLimit now))) =
          some message) :
    (∀ row, world.store.getNonce message.sender = some row →
        row.lastNonce < message.nonce) ∧
      (∃ row,
        (world.ingest config raw withinRateLimit now).store.getNonce
            message.sender = some row ∧
          row.lastNonce = message.nonce) ∧
      ∀ sender ≠ message.sender,
        (world.ingest config raw withinRateLimit now).store.getNonce
            sender = world.store.getNonce sender := by
  obtain ⟨admitted, inserts⟩ := Option.filter_eq_some_iff.mp accepted
  rcases @ingest_admitted config world _ _ _ now admitted with
    ⟨result, committed⟩ | ⟨unchanged, -⟩
  · obtain ⟨ahead, follows⟩ := ingestTxn_advances committed inserts
    exact ⟨ahead, follows, fun sender differs =>
      ingestTxn_otherSender committed differs⟩
  · rw [inserts] at unchanged
    cases unchanged

/-- Only ingest writes the tracker. -/
theorem nonces_posterStep
    {event : PosterEvent}
    (taken : posterStep config world event = some next)
    (notIngest : ∀ raw withinRateLimit now,
      event ≠ .ingest raw withinRateLimit now) :
    next.store.nonces = world.store.nonces := by
  cases posterStep_cases taken with
  | quiet same broadcasts ticks =>
      rw [same.store]
  | ingested raw withinRateLimit now =>
      exact absurd rfl (notIngest raw withinRateLimit now)
  | prepared read ticked nonempty same broadcasts ticks =>
      rw [same.store]
  | sent found isSent fresh unconfirmed same broadcasts ticks =>
      rw [same.store]
  | phased found leads arrived same broadcasts ticks =>
      rw [same.store]
  | confirmed found included committed =>
      exact nonces_confirmEntries committed
  | restarted =>
      rfl
  | watched stepped =>
      rcases watchStep_store stepped with
        ⟨sameStore, -⟩ | ⟨_, _, _, _, -, -, reorged, -⟩
      · exact congrArg Store.nonces sameStore
      · exact nonces_reorgBatch reorged
  | chained canonical =>
      rfl

theorem nonces_systemStep
    {event : SystemEvent}
    (taken : systemStep config world event = some next)
    (notIngest : ∀ raw withinRateLimit now,
      event ≠ .shared (.poster (.ingest raw withinRateLimit now))) :
    next.store.nonces = world.store.nonces := by
  cases event with
  | shared shared =>
      cases shared with
      | poster event =>
          apply nonces_posterStep taken
          rintro raw withinRateLimit now rfl
          exact notIngest raw withinRateLimit now rfl
      | readerWatch action =>
          obtain ⟨outcome, stepped, rfl⟩ := readerWatchStep_cases taken
          rcases watchStep_store stepped with
            ⟨sameStore, -⟩ | ⟨_, _, _, _, -, -, reorged, -⟩
          · exact congrArg Store.nonces sameStore
          · exact Store.nonces_markReorged reorged
  | processBatch opts =>
      obtain ⟨store, stepped, rfl⟩ := systemStep_processBatch taken
      have written :=
        processBatch_store config.libraries opts world.store
          emptyCounters
      simp only [readerStep] at stepped
      cases read : readSegment config.libraries opts with
      | none =>
          rw [read] at written
          split at stepped
          · rename_i after result returned
            cases stepped
            rw [written _ _ returned]
          · cases stepped
            rfl
      | some verified =>
          rw [read] at written
          obtain ⟨-, result, returned⟩ := written
          rw [returned] at stepped
          cases stepped
          exact Store.nonces_recordBatch _ _ _

/-- A step raises the tracked nonces, if it changes them. -/
theorem tracked_systemStep
    {event : SystemEvent}
    {sender : Address}
    {row : NonceTrackerRow}
    (taken : systemStep config world event = some next)
    (tracked : world.store.getNonce sender = some row) :
    ∃ later,
      next.store.getNonce sender = some later ∧
        row.lastNonce ≤ later.lastNonce := by
  by_cases isIngest :
      ∃ raw withinRateLimit now,
        event = .shared (.poster (.ingest raw withinRateLimit now))
  · obtain ⟨raw, withinRateLimit, now, rfl⟩ := isIngest
    cases taken
    cases accepted :
        newlyAccepted config world
          (.shared (.poster (.ingest raw withinRateLimit now))) with
    | none =>
        exact ⟨row, (ingest_keeps accepted).2 sender row tracked,
          Nat.le_refl _⟩
    | some message =>
        obtain ⟨ahead, ⟨later, isLater, follows⟩, others⟩ :=
          ingest_advances accepted
        by_cases ofSender : sender = message.sender
        · subst ofSender
          exact ⟨later, isLater,
            follows ▸ Nat.le_of_lt (ahead row tracked)⟩
        · exact ⟨row, (others sender ofSender).trans tracked,
            Nat.le_refl _⟩
  · have sameNonces : next.store.nonces = world.store.nonces := by
      apply nonces_systemStep taken
      intro raw withinRateLimit now isEvent
      exact isIngest ⟨raw, withinRateLimit, now, isEvent⟩
    refine ⟨row, ?_, Nat.le_refl _⟩
    rw [Store.getNonce, sameNonces]
    exact tracked

/-- A newly accepted message is ahead of the tracker before the step, and not
after it. -/
theorem newlyAccepted_tracked
    {event : SystemEvent}
    {message : DecodedMessage}
    (taken : systemStep config world event = some next)
    (accepted : newlyAccepted config world event = some message) :
    (∀ row, world.store.getNonce message.sender = some row →
        row.lastNonce < message.nonce) ∧
      ∃ row,
        next.store.getNonce message.sender = some row ∧
          row.lastNonce = message.nonce := by
  unfold newlyAccepted at accepted
  split at accepted
  · cases taken
    obtain ⟨ahead, follows, -⟩ := ingest_advances accepted
    exact ⟨ahead, follows⟩
  · cases accepted

end Steps

/-- Tracked nonces grow along a run. -/
theorem tracked_run
    {config : SystemConfig}
    {world final : World}
    {events : List SystemEvent}
    {sender : Address}
    {row : NonceTrackerRow}
    (executed :
      Runs.exec? (systemStep config) world events = some final)
    (tracked : world.store.getNonce sender = some row) :
    ∃ later,
      final.store.getNonce sender = some later ∧
        row.lastNonce ≤ later.lastNonce := by
  induction events generalizing world row with
  | nil =>
      cases executed
      exact ⟨row, tracked, Nat.le_refl _⟩
  | cons event rest inductionHypothesis =>
      rw [Runs.exec?] at executed
      split at executed
      · cases executed
      · rename_i next taken
        obtain ⟨middle, isMiddle, grows⟩ :=
          tracked_systemStep taken tracked
        obtain ⟨later, isLater, growsOn⟩ :=
          inductionHypothesis executed isMiddle
        exact ⟨later, isLater, grows.trans growsOn⟩

/-- Whatever a run newly accepts of a sender is ahead of the sender's tracker
at its start. -/
theorem newAcceptances_ahead
    {config : SystemConfig}
    {world : World}
    {events : List SystemEvent}
    {message : DecodedMessage}
    {row : NonceTrackerRow}
    (accepted : message ∈ newAcceptances config world events)
    (tracked : world.store.getNonce message.sender = some row) :
    row.lastNonce < message.nonce := by
  induction events generalizing world row with
  | nil =>
      cases accepted
  | cons event rest inductionHypothesis =>
      rw [newAcceptances] at accepted
      split at accepted
      · cases accepted
      · rename_i next taken
        rcases List.mem_append.mp accepted with now | later
        · have isNew := Option.mem_toList.mp now
          exact (newlyAccepted_tracked taken isNew).1 row tracked
        · obtain ⟨middle, isMiddle, grows⟩ :=
            tracked_systemStep taken tracked
          exact grows.trans_lt (inductionHypothesis later isMiddle)

/-- The messages a run newly accepts of one sender have increasing nonces. -/
theorem newAcceptances_increasing
    (config : SystemConfig)
    (world : World)
    (events : List SystemEvent) :
    (newAcceptances config world events).Pairwise fun earlier later =>
      earlier.sender = later.sender → earlier.nonce < later.nonce := by
  induction events generalizing world with
  | nil =>
      exact .nil
  | cons event rest inductionHypothesis =>
      rw [newAcceptances]
      split
      · exact .nil
      · rename_i next taken
        cases accepted : newlyAccepted config world event with
        | none =>
            exact inductionHypothesis next
        | some message =>
            obtain ⟨-, row, tracked, isNonce⟩ :=
              newlyAccepted_tracked taken accepted
            refine List.pairwise_cons.mpr
              ⟨?_, inductionHypothesis next⟩
            intro later member sameSender
            rw [← isNonce]
            exact newAcceptances_ahead member (sameSender ▸ tracked)

/-- Over any interleaving of ingest calls and other steps: tracked nonces do
not decrease, new acceptances of a sender have increasing nonces and distinct
slots, and every other ingest call leaves the message rows as they are. -/
theorem ingest_nonces_in_order
    (config : SystemConfig)
    (world : World)
    (events : List SystemEvent) :
    (∀ final, Runs.exec? (systemStep config) world events = some final →
      ∀ sender row, world.store.getNonce sender = some row →
        ∃ later,
          final.store.getNonce sender = some later ∧
            row.lastNonce ≤ later.lastNonce) ∧
    (newAcceptances config world events).Pairwise (fun earlier later =>
      earlier.sender = later.sender → earlier.nonce < later.nonce) ∧
    ((newAcceptances config world events).map
      DecodedMessage.key).Nodup ∧
    Runs.AllSteps (systemStep config)
      (fun before event =>
        ∀ raw withinRateLimit now,
          event = .shared (.poster (.ingest raw withinRateLimit now)) →
          newlyAccepted config before event = none →
          (before.ingest config raw withinRateLimit now).store.messages =
            before.store.messages)
      world events := by
  have increasing := newAcceptances_increasing config world events
  refine ⟨fun final executed sender row tracked =>
    tracked_run executed tracked, increasing, ?_, ?_⟩
  · refine List.pairwise_map.mpr (increasing.imp ?_)
    intro earlier later less sameKey
    obtain ⟨sameSender, sameNonce⟩ := Prod.mk.inj sameKey
    exact Nat.lt_irrefl _ (sameNonce ▸ less sameSender)
  · apply Runs.AllSteps.of_forall
    rintro before event raw withinRateLimit now rfl nothing
    exact (ingest_keeps nothing).1

end Bam
