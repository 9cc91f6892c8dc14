import Bam.Contracts.DisputeManager

namespace Bam

/-!
# The stake manager

Stakes behind exposures.  A stake is withdrawn by its staker once the withdrawal
delay has passed since its deposit, or slashed by whoever the owner has set as
dispute manager.

The contract runs beside the dispute manager and the exposure record: the last
sections put the three into one world and say when a stake stays available for
as long as its message can be disputed.
-/

open Reentry

/-- `DEFAULT_EXPOSURE_STAKE`, in wei. -/
def DEFAULT_EXPOSURE_STAKE : Nat := 10000000000000000

/-- `WITHDRAWAL_DELAY`, in seconds. -/
def WITHDRAWAL_DELAY : Nat := 86400

structure StakeRecord where
  staker : Address
  amount : Nat
  depositedAt : Nat
  active : Bool
  deriving Repr, DecidableEq

/-- The contract's storage and its balance. -/
structure StakeManager where
  balance : Nat
  owner : Address
  disputeManager : Address
  exposureStake : Nat
  stakes : Bytes32 → StakeRecord
  /-- The status of the reentrancy guard. -/
  entered : Bool

inductive StakeError where
  | InsufficientStake (required provided : Nat)
  | StakeAlreadyExists (messageHash : Bytes32)
  | NoStakeExists (messageHash : Bytes32)
  | NotAuthorized
  | WithdrawalNotAllowed (messageHash : Bytes32)
  | OwnableUnauthorizedAccount (account : Address)
  | OwnableInvalidOwner (owner : Address)
  | ReentrancyGuardReentrantCall
  /-- `"Transfer failed"`. -/
  | transferFailed
  deriving Repr, DecidableEq

inductive StakeCall where
  | deposit
      (sender : Address)
      (value : Nat)
      (messageHash : Bytes32)
  | withdraw (sender : Address) (messageHash : Bytes32)
  | slash
      (sender : Address)
      (messageHash : Bytes32)
      (challenger : Address)
  | setExposureStake (sender : Address) (stake : Nat)
  | setDisputeManager (sender disputeManager : Address)
  | transferOwnership (sender newOwner : Address)
  | renounceOwnership (sender : Address)
  | forcedEther (amount : Nat)
  deriving Repr, DecidableEq

namespace StakeManager

/-- The contract right after deployment. -/
def deployed
    (owner : Address)
    (balance : Nat) : StakeManager where
  balance := balance
  owner := owner
  disputeManager := 0
  exposureStake := DEFAULT_EXPOSURE_STAKE
  stakes := fun _ => {
    staker := 0
    amount := 0
    depositedAt := 0
    active := false }
  entered := false

/-- `nonReentrant`, up to the body. -/
def nonReentrant
    {Result : Type}
    (manager : StakeManager)
    (body : StakeManager → Except StakeError Result) :
    Except StakeError Result :=
  if manager.entered then .error .ReentrancyGuardReentrantCall
  else body { manager with entered := true }

/-- `onlyOwner`. -/
def onlyOwner
    {Result : Type}
    (manager : StakeManager)
    (sender : Address)
    (body : Except StakeError Result) : Except StakeError Result :=
  if sender ≠ manager.owner then
    .error (.OwnableUnauthorizedAccount sender)
  else body

/-- `deposit`. -/
def deposit
    (manager : StakeManager)
    (sender : Address)
    (value timestamp : Nat)
    (messageHash : Bytes32) : Except StakeError StakeManager :=
  nonReentrant manager fun manager =>
    if value < manager.exposureStake then
      .error (.InsufficientStake manager.exposureStake value)
    else if (manager.stakes messageHash).active then
      .error (.StakeAlreadyExists messageHash)
    else
      .ok { manager with
        balance := manager.balance + value
        stakes :=
          Function.update manager.stakes messageHash {
            staker := sender
            amount := value
            depositedAt := toUint64 timestamp
            active := true }
        entered := false }

/-- `stake.active = false; stake.amount = 0`. -/
def deactivate
    (manager : StakeManager)
    (messageHash : Bytes32) : StakeManager :=
  { manager with
    stakes :=
      Function.update manager.stakes messageHash
        { manager.stakes messageHash with
          active := false
          amount := 0 } }

/-- A call with ether; without the funds it fails, and the `require` after it
reverts. -/
def send
    (manager : StakeManager)
    (amount : Nat) : Except StakeError (Progress StakeManager) :=
  if manager.balance < amount then .error .transferFailed
  else
    .ok (.sends manager
      { manager with balance := manager.balance - amount })

/-- `withdraw`, up to its transfer. -/
def withdraw
    (manager : StakeManager)
    (sender : Address)
    (timestamp : Nat)
    (messageHash : Bytes32) : Except StakeError (Progress StakeManager) :=
  nonReentrant manager fun manager =>
    let stake := manager.stakes messageHash
    if stake.active = false then .error (.NoStakeExists messageHash)
    else if stake.staker ≠ sender then .error .NotAuthorized
    else if timestamp < stake.depositedAt + WITHDRAWAL_DELAY then
      .error (.WithdrawalNotAllowed messageHash)
    else (manager.deactivate messageHash).send stake.amount

/-- `slash`, up to its transfer. -/
def slash
    (manager : StakeManager)
    (sender : Address)
    (messageHash : Bytes32) : Except StakeError (Progress StakeManager) :=
  if sender ≠ manager.disputeManager then .error .NotAuthorized
  else
    nonReentrant manager fun manager =>
      let stake := manager.stakes messageHash
      if stake.active = false then .error (.NoStakeExists messageHash)
      else (manager.deactivate messageHash).send stake.amount

/-- A call in a block of a given time, up to its transfer if it makes one. -/
def start
    (manager : StakeManager)
    (timestamp : Nat) :
    StakeCall → Except StakeError (Progress StakeManager)
  | .deposit sender value messageHash =>
      Progress.returned <$>
        manager.deposit sender value timestamp messageHash
  | .withdraw sender messageHash =>
      manager.withdraw sender timestamp messageHash
  | .slash sender messageHash _ => manager.slash sender messageHash
  | .setExposureStake sender stake =>
      manager.onlyOwner sender
        (.ok (.returned { manager with exposureStake := stake }))
  | .setDisputeManager sender disputeManager =>
      manager.onlyOwner sender
        (.ok (.returned { manager with
          disputeManager := disputeManager }))
  | .transferOwnership sender newOwner =>
      manager.onlyOwner sender
        (if newOwner = 0 then .error (.OwnableInvalidOwner 0)
        else .ok (.returned { manager with owner := newOwner }))
  | .renounceOwnership sender =>
      manager.onlyOwner sender
        (.ok (.returned { manager with owner := 0 }))
  | .forcedEther amount =>
      .ok (.returned { manager with balance := manager.balance + amount })

/-- A call from its transfer on. -/
def finish
    (manager : StakeManager)
    (call : StakeCall)
    (sent : Bool) : Except StakeError StakeManager :=
  if sent = false then .error .transferFailed
  else
    match call with
    | .withdraw _ _ => .ok { manager with entered := false }
    | .slash _ _ _ => .ok { manager with entered := false }
    | _ => .ok manager

end StakeManager

/-!
## Stakes beside disputes
-/

/-- The three contracts, the time of the block under way, and which messages had
their last stake deposited before they were exposed. -/
structure Peripherals where
  now : Nat
  exposureRecord : ExposureRecord
  disputes : DisputeManager
  stakes : StakeManager
  early : Bytes32 → Bool

inductive PeripheralError where
  /-- A block inside a call, or before the last one. -/
  | notABlock
  | exposureRecord (reason : ExposureRecordError)
  | disputes (reason : DisputeError)
  | stakes (reason : StakeError)
  deriving Repr, DecidableEq

inductive PeripheralCall where
  /-- A new block. -/
  | block (timestamp : Nat)
  | record
      (msgSender : Address)
      (messageHash : Bytes32)
      (sender : Address)
      (contentHash : Bytes32)
      (timestamp : Nat)
  | dispute (call : DisputeCall)
  | stake (call : StakeCall)
  deriving Repr, DecidableEq

namespace Peripherals

/-- The contracts right after deployment. -/
def deployed
    (owner : Address)
    (now : Nat) : Peripherals where
  now := now
  exposureRecord := .initial
  disputes := .deployed owner 0
  stakes := .deployed owner 0
  early := fun _ => false

/-- What the record answers to the dispute manager. -/
def answers
    (world : Peripherals)
    (messageHash : Bytes32) : ExposureAnswers where
  isExposed := some (world.exposureRecord.isExposed messageHash)
  exposedAt :=
    match world.exposureRecord.getExposure messageHash with
    | .ok exposure => some exposure.exposedAt
    | .error _ => none

/-- A call of the dispute manager reads the block's time and the record. -/
def situate
    (world : Peripherals) : DisputeCall → DisputeCall
  | .challenge sender value _ _ messageHash evidence =>
      .challenge sender value world.now (world.answers messageHash)
        messageHash evidence
  | .claimExpiredDispute sender _ messageHash =>
      .claimExpiredDispute sender world.now messageHash
  | call => call

/-- A deposit comes before the exposure, or after it. -/
def noteDeposit
    (world : Peripherals) : StakeCall → Bytes32 → Bool
  | .deposit _ _ messageHash =>
      Function.update world.early messageHash
        (!world.exposureRecord.isExposed messageHash)
  | _ => world.early

/-- A call, up to its transfer if it makes one. -/
def start
    (world : Peripherals) :
    PeripheralCall → Except PeripheralError (Progress Peripherals)
  | .block timestamp =>
      if timestamp < world.now ∨ world.disputes.entered = true ∨
          world.stakes.entered = true then
        .error .notABlock
      else .ok (.returned { world with now := timestamp })
  | .record msgSender messageHash sender contentHash timestamp =>
      match world.exposureRecord.record msgSender world.now messageHash
          sender contentHash timestamp with
      | .error reason => .error (.exposureRecord reason)
      | .ok exposureRecord =>
          .ok (.returned { world with exposureRecord := exposureRecord })
  | .dispute call =>
      match world.disputes.start (world.situate call) with
      | .error reason => .error (.disputes reason)
      | .ok progress =>
          .ok (progress.map fun disputes =>
            { world with disputes := disputes })
  | .stake call =>
      match world.stakes.start world.now call with
      | .error reason => .error (.stakes reason)
      | .ok progress =>
          .ok (progress.map fun stakes =>
            { world with
              stakes := stakes
              early := world.noteDeposit call })

/-- A call from its transfer on. -/
def finish
    (world : Peripherals)
    (call : PeripheralCall)
    (sent : Bool) : Except PeripheralError Peripherals :=
  match call with
  | .block _ => .error .notABlock
  | .record _ _ _ _ _ => .error .notABlock
  | .dispute call =>
      match world.disputes.finish call sent with
      | .error reason => .error (.disputes reason)
      | .ok disputes => .ok { world with disputes := disputes }
  | .stake call =>
      match world.stakes.finish call sent with
      | .error reason => .error (.stakes reason)
      | .ok stakes => .ok { world with stakes := stakes }

/-- The contracts as the machine runs them. -/
def contracts :
    Contracts Peripherals PeripheralCall PeripheralError where
  start := start
  finish := finish

/-- The dispute manager would take a challenge of the message, or has one
open. -/
def Disputable
    (world : Peripherals)
    (messageHash : Bytes32) : Prop :=
  (world.disputes.disputes messageHash).status = .Challenged ∨
    ∃ sender value evidence next,
      world.disputes.challenge sender value world.now
        (world.answers messageHash) messageHash evidence = .ok next

/-- A stake deposited before the exposure cannot be withdrawn while the message
can be disputed. -/
def StakesAvailable (world : Peripherals) : Prop :=
  ∀ (messageHash : Bytes32) (sender : Address),
    world.early messageHash = true →
    world.Disputable messageHash →
    ∃ reason,
      world.stakes.withdraw sender world.now messageHash = .error reason

/-- A stake that was deposited before the exposure and is still there. -/
def Staked
    (world : Peripherals)
    (messageHash : Bytes32) : Prop :=
  world.early messageHash = true ∧
    (world.stakes.stakes messageHash).active = true

/-- The withdrawal delay, counted from the deposit, has passed at that time. -/
def Ripe
    (world : Peripherals)
    (messageHash : Bytes32)
    (timestamp : Nat) : Prop :=
  (world.stakes.stakes messageHash).depositedAt + WITHDRAWAL_DELAY ≤
    timestamp

/-- At that time no dispute of the message is open, and its challenge window,
counted from the exposure, is over. -/
def Settled
    (world : Peripherals)
    (messageHash : Bytes32)
    (timestamp : Nat) : Prop :=
  (world.disputes.disputes messageHash).status ≠ .Challenged ∧
    (world.exposureRecord.isExposed messageHash = true →
      (world.exposureRecord.exposures messageHash).exposedAt +
          world.disputes.challengeWindow < timestamp)

/-- The calls that keep the stakes available: time passes the delay of a staked
message only when its window is over and its dispute resolved, a staked message
is not exposed after its delay, and no window is opened again after it. -/
def Timely
    (world : Peripherals) : PeripheralCall → Prop
  | .block timestamp =>
      ∀ messageHash, world.Staked messageHash →
        world.Ripe messageHash timestamp →
          world.Settled messageHash timestamp
  | .record _ messageHash _ _ _ =>
      world.Staked messageHash →
      world.exposureRecord.isExposed messageHash = false →
      ¬ world.Ripe messageHash world.now
  | .dispute (.setChallengeWindow sender window) =>
      sender = world.disputes.owner →
      ∀ messageHash, world.Staked messageHash →
        world.Ripe messageHash world.now →
        world.exposureRecord.isExposed messageHash = true →
        (world.exposureRecord.exposures messageHash).exposedAt + window <
          world.now
  | _ => True

end Peripherals

namespace StakeManager

theorem nonReentrant_ok
    {Result : Type}
    {manager : StakeManager}
    {body : StakeManager → Except StakeError Result}
    {result : Result}
    (ran : nonReentrant manager body = .ok result) :
    body { manager with entered := true } = .ok result := by
  unfold nonReentrant at ran
  split at ran
  · cases ran
  · exact ran

theorem onlyOwner_ok
    {Result : Type}
    {manager : StakeManager}
    {sender : Address}
    {body : Except StakeError Result}
    {result : Result}
    (ran : manager.onlyOwner sender body = .ok result) :
    body = .ok result := by
  unfold onlyOwner at ran
  split at ran
  · cases ran
  · exact ran

/-- Sending a stake off leaves no active one under its hash, and the others as
they were. -/
theorem deactivate_send_ok
    {manager : StakeManager}
    {disputed : Bytes32}
    {amount : Nat}
    {progress : Progress StakeManager}
    (ran : (manager.deactivate disputed).send amount = .ok progress)
    {messageHash : Bytes32}
    (active : (progress.reached.stakes messageHash).active = true) :
    progress.reached.stakes messageHash = manager.stakes messageHash := by
  unfold send at ran
  split at ran
  · cases ran
  · cases ran
    by_cases same : messageHash = disputed
    · simp [Progress.reached, deactivate, same] at active
    · simp [Progress.reached, deactivate, same]

/-- A stake is withdrawn only once its delay has passed. -/
theorem withdraw_ok
    {manager : StakeManager}
    {sender : Address}
    {timestamp : Nat}
    {messageHash : Bytes32}
    {progress : Progress StakeManager}
    (ran :
      manager.withdraw sender timestamp messageHash = .ok progress) :
    (manager.stakes messageHash).active = true ∧
      (manager.stakes messageHash).depositedAt + WITHDRAWAL_DELAY ≤
        timestamp ∧
      (StakeManager.deactivate { manager with entered := true }
          messageHash).send (manager.stakes messageHash).amount =
        .ok progress := by
  have body := nonReentrant_ok ran
  dsimp only at body
  split at body
  · cases body
  · rename_i active
    split at body
    · cases body
    · split at body
      · cases body
      · rename_i delayed
        exact ⟨(Bool.not_eq_false _).mp active, not_lt.mp delayed, body⟩

/-- A stake that is active after a call was so before it, unless the call
deposited it. -/
theorem start_stakes
    {manager : StakeManager}
    {timestamp : Nat}
    {call : StakeCall}
    {progress : Progress StakeManager}
    (ran : manager.start timestamp call = .ok progress)
    {messageHash : Bytes32}
    (active : (progress.reached.stakes messageHash).active = true) :
    progress.reached.stakes messageHash = manager.stakes messageHash ∨
      ∃ sender value, call = .deposit sender value messageHash := by
  cases call with
  | deposit sender value deposited =>
      by_cases same : messageHash = deposited
      · exact .inr ⟨sender, value, same ▸ rfl⟩
      · simp only [start] at ran
        cases taken :
            manager.deposit sender value timestamp deposited with
        | error reason =>
            simp [taken] at ran
        | ok next =>
            simp only [taken] at ran
            cases ran
            have body := nonReentrant_ok taken
            split at body
            · cases body
            · split at body
              · cases body
              · cases body
                exact .inl (by simp [Progress.reached, same])
  | withdraw sender withdrawn =>
      exact .inl (deactivate_send_ok (withdraw_ok ran).2.2 active)
  | slash sender slashed challenger =>
      simp only [start, slash] at ran
      split at ran
      · cases ran
      · have body := nonReentrant_ok ran
        dsimp only at body
        split at body
        · cases body
        · exact .inl (deactivate_send_ok body active)
  | setExposureStake sender stake =>
      cases onlyOwner_ok ran
      exact .inl rfl
  | setDisputeManager sender disputeManager =>
      cases onlyOwner_ok ran
      exact .inl rfl
  | transferOwnership sender newOwner =>
      have set := onlyOwner_ok ran
      split at set
      · cases set
      · cases set
        exact .inl rfl
  | renounceOwnership sender =>
      cases onlyOwner_ok ran
      exact .inl rfl
  | forcedEther amount =>
      cases ran
      exact .inl rfl

theorem finish_stakes
    {manager next : StakeManager}
    {call : StakeCall}
    (ran : manager.finish call true = .ok next) :
    next.stakes = manager.stakes := by
  cases call <;> (cases ran; rfl)

end StakeManager

/-- A call from its transfer on leaves the disputes and the window alone. -/
theorem DisputeManager.finish_disputes
    {manager next : DisputeManager}
    {call : DisputeCall}
    (ran : manager.finish call true = .ok next) :
    next.disputes = manager.disputes ∧
      next.challengeWindow = manager.challengeWindow := by
  cases call <;> (cases ran; exact ⟨rfl, rfl⟩)

namespace Peripherals

/-- What timely calls keep: only exposed messages are disputed, and a staked one
whose delay has passed is settled. -/
structure Guarded (world : Peripherals) : Prop where
  exposed :
    ∀ messageHash,
      (world.disputes.disputes messageHash).status = .Challenged →
      world.exposureRecord.isExposed messageHash = true
  settled :
    ∀ messageHash, world.Staked messageHash →
      world.Ripe messageHash world.now →
      world.Settled messageHash world.now

/-- The record's answers are those of its entry. -/
theorem answers_ok
    {world : Peripherals}
    {messageHash : Bytes32}
    (isExposed : (world.answers messageHash).isExposed = some true)
    {exposedAt : Nat}
    (answered :
      (world.answers messageHash).exposedAt = some exposedAt) :
    world.exposureRecord.isExposed messageHash = true ∧
      (world.exposureRecord.exposures messageHash).exposedAt =
        exposedAt := by
  refine ⟨Option.some.inj isExposed, ?_⟩
  unfold answers ExposureRecord.getExposure at answered
  dsimp only at answered
  split at answered
  · rename_i exposure found
    split at found
    · cases found
      exact Option.some.inj answered
    · cases found
  · cases answered

/-- No challenge of a settled message is accepted. -/
theorem Settled.unchallenged
    {world : Peripherals}
    {messageHash : Bytes32}
    (settled : world.Settled messageHash world.now)
    {sender : Address}
    {value : Nat}
    {evidence : Bytes}
    {next : DisputeManager} :
    world.disputes.challenge sender value world.now
        (world.answers messageHash) messageHash evidence ≠ .ok next := by
  intro challenged
  obtain ⟨-, -, isExposed, exposedAt, answered, inTime⟩ :=
    DisputeManager.challenge_ok challenged
  obtain ⟨exposed, rfl⟩ := answers_ok isExposed answered
  exact absurd inTime (not_le.mpr (settled.2 exposed))

theorem Guarded.stakesAvailable
    {world : Peripherals}
    (guarded : Guarded world) :
    world.StakesAvailable := by
  intro messageHash sender early disputable
  cases ran : world.stakes.withdraw sender world.now messageHash with
  | error reason =>
      exact ⟨reason, rfl⟩
  | ok progress =>
      obtain ⟨active, delayed, -⟩ := StakeManager.withdraw_ok ran
      have settled := guarded.settled messageHash ⟨early, active⟩ delayed
      rcases disputable with opened | ⟨_, _, _, _, challenged⟩
      · exact absurd opened settled.1
      · exact absurd challenged settled.unchallenged

theorem guarded_block
    {world : Peripherals}
    {timestamp : Nat}
    (timely : world.Timely (.block timestamp))
    (guarded : Guarded world) :
    Guarded { world with now := timestamp } where
  exposed := guarded.exposed
  settled := timely

theorem guarded_record
    {world : Peripherals}
    {exposureRecord : ExposureRecord}
    {msgSender sender : Address}
    {timestamp : Nat}
    {messageHash contentHash : Bytes32}
    (guarded : Guarded world)
    (timely :
      world.Timely
        (.record msgSender messageHash sender contentHash timestamp))
    (ran :
      world.exposureRecord.record msgSender world.now messageHash sender
        contentHash timestamp = .ok exposureRecord) :
    Guarded { world with exposureRecord := exposureRecord } := by
  obtain ⟨fresh, -, others⟩ := ExposureRecord.record_ok ran
  have unexposed :
      (world.disputes.disputes messageHash).status ≠ .Challenged := by
    intro opened
    rw [guarded.exposed messageHash opened] at fresh
    cases fresh
  have same :
      ∀ other, other ≠ messageHash →
        exposureRecord.isExposed other =
          world.exposureRecord.isExposed other := by
    intro other different
    simp only [ExposureRecord.isExposed, others other different]
  exact {
    exposed := by
      intro other opened
      have different : other ≠ messageHash := by
        rintro rfl
        exact unexposed opened
      exact (same other different).trans (guarded.exposed other opened)
    settled := by
      intro other staked ripe
      by_cases equal : other = messageHash
      · subst equal
        exact absurd ripe (timely staked fresh)
      · obtain ⟨undisputed, closed⟩ := guarded.settled other staked ripe
        refine ⟨undisputed, fun exposed => ?_⟩
        dsimp only at exposed ⊢
        rw [others other equal]
        rw [same other equal] at exposed
        exact closed exposed }

theorem guarded_dispute
    {world : Peripherals}
    {call : DisputeCall}
    {progress : Progress DisputeManager}
    (guarded : Guarded world)
    (timely : world.Timely (.dispute call))
    (ran : world.disputes.start (world.situate call) = .ok progress) :
    Guarded { world with disputes := progress.reached } := by
  have opens :
      ∀ messageHash,
        (progress.reached.disputes messageHash).status = .Challenged →
        (world.disputes.disputes messageHash).status = .Challenged ∨
          world.exposureRecord.isExposed messageHash = true ∧
            ¬ world.Settled messageHash world.now := by
    intro messageHash opened
    rcases DisputeManager.start_opens ran opened with
      before | ⟨_, _, _, _, _, next, isChallenge, challenged⟩
    · exact .inl before
    · cases call with
      | challenge sender value _ _ disputed evidence =>
          cases isChallenge
          obtain ⟨-, -, isExposed, exposedAt, answered, -⟩ :=
            DisputeManager.challenge_ok challenged
          exact .inr ⟨(answers_ok isExposed answered).1,
            fun settled => settled.unchallenged challenged⟩
      | _ => cases isChallenge
  exact {
    exposed := by
      intro messageHash opened
      rcases opens messageHash opened with before | ⟨exposed, -⟩
      · exact guarded.exposed messageHash before
      · exact exposed
    settled := by
      intro messageHash staked ripe
      have before := guarded.settled messageHash staked ripe
      refine ⟨fun opened => ?_, fun exposed => ?_⟩
      · rcases opens messageHash opened with already | ⟨-, unsettled⟩
        · exact before.1 already
        · exact unsettled before
      · rcases DisputeManager.start_challengeWindow ran with kept | set
        · dsimp only
          rw [kept]
          exact before.2 exposed
        · cases call with
          | setChallengeWindow sender window =>
              simp only [situate, DisputeCall.setChallengeWindow.injEq]
                at set
              obtain ⟨owns, window⟩ := set
              dsimp only
              rw [← window]
              exact timely owns messageHash staked ripe exposed
          | _ => cases set }

/-- A stake there after a call was there before it, or its message is not yet
exposed. -/
theorem staked_of_start
    {world : Peripherals}
    {call : StakeCall}
    {progress : Progress StakeManager}
    (ran : world.stakes.start world.now call = .ok progress)
    {messageHash : Bytes32}
    (staked :
      Staked { world with
        stakes := progress.reached
        early := world.noteDeposit call } messageHash) :
    (world.Staked messageHash ∧
        progress.reached.stakes messageHash =
          world.stakes.stakes messageHash) ∨
      world.exposureRecord.isExposed messageHash = false := by
  obtain ⟨early, active⟩ := staked
  rcases StakeManager.start_stakes ran active with
    same | ⟨sender, value, rfl⟩
  · have before : (world.stakes.stakes messageHash).active = true :=
      same ▸ active
    cases call with
    | deposit sender value deposited =>
        by_cases equal : messageHash = deposited
        · exact .inr (by simpa [noteDeposit, equal] using early)
        · exact .inl ⟨⟨by simpa [noteDeposit, equal] using early, before⟩,
            same⟩
    | _ => exact .inl ⟨⟨early, before⟩, same⟩
  · exact .inr (by simpa [noteDeposit] using early)

theorem guarded_stake
    {world : Peripherals}
    {call : StakeCall}
    {progress : Progress StakeManager}
    (guarded : Guarded world)
    (ran : world.stakes.start world.now call = .ok progress) :
    Guarded { world with
      stakes := progress.reached
      early := world.noteDeposit call } where
  exposed := guarded.exposed
  settled := by
    intro messageHash staked ripe
    rcases staked_of_start ran staked with ⟨before, same⟩ | unexposed
    · unfold Ripe at ripe
      dsimp only at ripe
      rw [same] at ripe
      exact guarded.settled messageHash before ripe
    · refine ⟨fun opened => ?_, fun exposed => ?_⟩
      · exact absurd (guarded.exposed messageHash opened)
          (Bool.eq_false_iff.mp unexposed)
      · exact absurd exposed (Bool.eq_false_iff.mp unexposed)

/-- Timely calls keep `Guarded`. -/
theorem guarded_start
    {world : Peripherals}
    {call : PeripheralCall}
    {progress : Progress Peripherals}
    (guarded : Guarded world)
    (timely : world.Timely call)
    (ran : world.start call = .ok progress) :
    Guarded progress.reached := by
  cases call with
  | block timestamp =>
      simp only [start] at ran
      split at ran
      · cases ran
      · cases ran
        exact guarded_block timely guarded
  | record msgSender messageHash sender contentHash timestamp =>
      simp only [start] at ran
      split at ran
      · cases ran
      · rename_i recorded
        cases ran
        exact guarded_record guarded timely recorded
  | dispute call =>
      simp only [start] at ran
      split at ran
      · cases ran
      · rename_i started
        cases ran
        rw [Progress.reached_map]
        exact guarded_dispute guarded timely started
  | stake call =>
      simp only [start] at ran
      split at ran
      · cases ran
      · rename_i started
        cases ran
        rw [Progress.reached_map]
        exact guarded_stake guarded started

theorem guarded_finish
    {world next : Peripherals}
    {call : PeripheralCall}
    (guarded : Guarded world)
    (ran : world.finish call true = .ok next) :
    Guarded next := by
  cases call with
  | block timestamp =>
      cases ran
  | record msgSender messageHash sender contentHash timestamp =>
      cases ran
  | dispute call =>
      simp only [finish] at ran
      split at ran
      · cases ran
      · rename_i finished
        cases ran
        obtain ⟨disputes, window⟩ :=
          DisputeManager.finish_disputes finished
        refine ⟨fun messageHash opened => ?_,
          fun messageHash staked ripe => ?_⟩
        · dsimp only at opened
          rw [disputes] at opened
          exact guarded.exposed messageHash opened
        · unfold Settled
          dsimp only
          rw [disputes, window]
          exact guarded.settled messageHash staked ripe
  | stake call =>
      simp only [finish] at ran
      split at ran
      · cases ran
      · rename_i finished
        cases ran
        have stakes := StakeManager.finish_stakes finished
        refine ⟨guarded.exposed, fun messageHash staked ripe => ?_⟩
        unfold Staked at staked
        unfold Ripe at ripe
        dsimp only at staked ripe
        rw [stakes] at staked ripe
        exact guarded.settled messageHash staked ripe

theorem guarded_deployed
    (owner : Address)
    (now : Nat) :
    Guarded (deployed owner now) where
  exposed := by
    intro messageHash opened
    cases opened
  settled := by
    intro messageHash staked
    cases staked.1

/-- No call goes on after a transfer that failed. -/
theorem finish_required
    (world next : Peripherals)
    (call : PeripheralCall) :
    world.finish call false ≠ .ok next := by
  intro ran
  cases call with
  | block timestamp =>
      cases ran
  | record msgSender messageHash sender contentHash timestamp =>
      cases ran
  | dispute call =>
      cases ran
  | stake call =>
      cases ran

/-- A run whose calls are all timely keeps every stake available whenever its
message can be disputed. -/
theorem stakesAvailable_of_timely
    (owner : Address)
    (now : Nat)
    (events : List (Event PeripheralCall))
    (timely :
      Runs.AllSteps (step contracts) (Allowed Timely)
        (idle (deployed owner now)) events) :
    Runs.AllStates (step contracts)
      (fun state => state.world.StakesAvailable)
      (idle (deployed owner now)) events :=
  Runs.AllStates.mono
    (fun _ guarded => Guarded.stakesAvailable guarded)
    (allStates_of_kept
      (kept_of_world guarded_start guarded_finish finish_required)
      (guarded_deployed owner now) timely)

/-- One hour for challenges: the message is exposed and challenged, the dispute
is resolved, and then the stake is withdrawn. -/
def hourRun : List (Event PeripheralCall) := [
  .call (.dispute (.setChallengeWindow 9 3600)),
  .call (.stake (.deposit 1 DEFAULT_EXPOSURE_STAKE 7)),
  .call (.block 4600),
  .call (.record 2 7 3 0 0),
  .call (.dispute (.challenge 4 DEFAULT_CHALLENGE_STAKE 0 ⟨none, none⟩ 7 [])),
  .call (.dispute (.resolve 9 7 true)),
  .returns,
  .call (.block 87400),
  .call (.stake (.withdraw 1 7)),
  .returns]

/-- The run after a number of its events. -/
def hourState (count : Nat) : State Peripherals PeripheralCall :=
  ((Runs.exec? (step contracts) (idle (deployed 9 1000))
    (hourRun.take count)).getD (idle (deployed 9 1000)))

/-- Only the message of the sample has a stake. -/
theorem eq_of_staked_hourState
    {count : Nat}
    (deposited :
      (hourState count).world.early =
        Function.update (fun _ => false) 7 true)
    {messageHash : Bytes32}
    (staked : (hourState count).world.Staked messageHash) :
    messageHash = 7 := by
  have early := staked.1
  rw [deposited] at early
  by_contra other
  rw [Function.update_of_ne other] at early
  cases early

theorem stakesAvailable_of_timely_hour :
    Runs.AllStates (step contracts)
      (fun state => state.world.StakesAvailable)
      (idle (deployed 9 1000)) hourRun := by
  refine stakesAvailable_of_timely 9 1000 hourRun
    (Runs.AllSteps.of_prefixes fun count within => ?_)
  have windowSet : (hourState 0).world.Timely
      (.dispute (.setChallengeWindow 9 3600)) := by
    intro _ messageHash staked
    cases staked.1
  have early : (hourState 2).world.Timely (.block 4600) := by
    intro messageHash staked ripe
    cases eq_of_staked_hourState rfl staked
    have unripe : ¬ (hourState 2).world.Ripe 7 4600 := by
      unfold Ripe
      decide +kernel
    exact absurd ripe unripe
  have exposed : (hourState 3).world.Timely (.record 2 7 3 0 0) := by
    intro _ _
    unfold Ripe
    decide +kernel
  have late : (hourState 7).world.Timely (.block 87400) := by
    intro messageHash staked _
    cases eq_of_staked_hourState rfl staked
    unfold Settled
    decide +kernel
  intro state executed
  have isState : state = hourState count := by
    rw [hourState, executed]
    rfl
  subst isState
  match count, within with
  | 0, _ => exact windowSet
  | 1, _ => trivial
  | 2, _ => exact early
  | 3, _ => exact exposed
  | 4, _ => trivial
  | 5, _ => trivial
  | 6, _ => trivial
  | 7, _ => exact late
  | 8, _ => trivial
  | 9, _ => trivial
  | count + 10, outside =>
      exact absurd outside
        (Nat.not_lt.mpr (Nat.le_add_left 10 count))

/-- Between calls the condition is exact: a stake whose delay has passed can be
withdrawn while its message is not settled. -/
theorem settled_of_stakesAvailable
    {world : Peripherals}
    {messageHash : Bytes32}
    (staked : world.Staked messageHash)
    (ripe : world.Ripe messageHash world.now)
    (disputesIdle : world.disputes.entered = false)
    (stakesIdle : world.stakes.entered = false)
    (funded :
      (world.stakes.stakes messageHash).amount ≤ world.stakes.balance)
    (fits :
      (world.exposureRecord.exposures messageHash).exposedAt +
          world.disputes.challengeWindow + RESOLUTION_PERIOD < 2 ^ 256)
    (available : world.StakesAvailable) :
    world.Settled messageHash world.now := by
  by_contra unsettled
  have disputable : world.Disputable messageHash := by
    by_cases opened :
        (world.disputes.disputes messageHash).status = .Challenged
    · exact .inl opened
    · obtain ⟨exposed, inTime⟩ :
          world.exposureRecord.isExposed messageHash = true ∧
            world.now ≤
              (world.exposureRecord.exposures messageHash).exposedAt +
                world.disputes.challengeWindow := by
        unfold Settled at unsettled
        simpa [opened] using unsettled
      have answered :
          world.answers messageHash = {
            isExposed := some true
            exposedAt := some
              (world.exposureRecord.exposures messageHash).exposedAt } := by
        have positive :
            0 < (world.exposureRecord.exposures messageHash).exposedAt :=
          of_decide_eq_true exposed
        simp [answers, exposed, ExposureRecord.getExposure, positive]
      have deadlineFits : world.now + RESOLUTION_PERIOD < 2 ^ 256 := by
        omega
      cases challenged :
          world.disputes.challenge 0 world.disputes.challengeStake
            world.now (world.answers messageHash) messageHash [] with
      | ok next =>
          exact .inr ⟨0, _, [], next, challenged⟩
      | error reason =>
          simp [DisputeManager.challenge, DisputeManager.nonReentrant,
            answered, disputesIdle, opened, checkedAdd_of_lt deadlineFits,
            checkedAdd_of_lt
              (Nat.lt_of_le_of_lt (Nat.le_add_right _ _) fits),
            not_lt.mpr inTime]
            at challenged
  obtain ⟨reason, refused⟩ :=
    available messageHash (world.stakes.stakes messageHash).staker
      staked.1 disputable
  simp only [StakeManager.withdraw, StakeManager.nonReentrant,
    stakesIdle, staked.2, Bool.false_eq_true, Bool.true_eq_false, if_false,
    ne_eq, not_true_eq_false, not_lt.mpr ripe, StakeManager.send,
    StakeManager.deactivate, not_lt.mpr funded] at refused
  cases refused

/-- A message that is exposed an hour after its stake is deposited: the stake
can be withdrawn in the last hour of the challenge window. -/
theorem stake_withdrawable_in_window :
    ¬ ∀ (owner : Address) (now : Nat) (events : List (Event PeripheralCall)),
        Runs.AllStates (step contracts)
          (fun state => state.world.StakesAvailable)
          (idle (deployed owner now)) events := by
  intro always
  have available :=
    (always 9 1000 [
      .call (.stake (.deposit 1 DEFAULT_EXPOSURE_STAKE 7)),
      .call (.block 4600),
      .call (.record 2 7 3 0 0),
      .call (.block 87400)]).final rfl
  have settled :=
    @settled_of_stakesAvailable _ 7 ⟨rfl, rfl⟩
      (by unfold Ripe; decide +kernel) rfl rfl (by decide) (by decide)
      available
  exact absurd (settled.2 rfl) (by decide +kernel)

end Peripherals

end Bam
