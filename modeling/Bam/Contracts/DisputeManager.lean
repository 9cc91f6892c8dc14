import Bam.Contracts.Evm
import Bam.Contracts.ExposureRecord
import Bam.Lib.Reentry
import Mathlib.Algebra.BigOperators.Group.Finset.Basic
import Mathlib.Algebra.Order.BigOperators.Group.Finset

namespace Bam

/-!
# The dispute manager

A challenge puts a stake on an exposed message; a resolver, or anyone once the
deadline has passed, closes it and has the stake sent to the owner or to the
challenger.  The recipient's code runs while the call is under way.  The ledger
lists the stakes the contract took and sent; no call reads it.
-/

open Reentry

/-- `DEFAULT_CHALLENGE_WINDOW`, in seconds. -/
def DEFAULT_CHALLENGE_WINDOW : Nat := 86400

/-- `DEFAULT_CHALLENGE_STAKE`, in wei. -/
def DEFAULT_CHALLENGE_STAKE : Nat := 10000000000000000

/-- `RESOLUTION_PERIOD`, in seconds. -/
def RESOLUTION_PERIOD : Nat := 604800

inductive DisputeStatus where
  | None
  | Challenged
  | Resolved
  | Rejected
  deriving Repr, DecidableEq

/-- `SocialBlobsTypes.Dispute`. -/
structure Dispute where
  messageHash : Bytes32
  challenger : Address
  challengedAt : Nat
  resolveDeadline : Nat
  status : DisputeStatus
  evidence : Bytes
  deriving Repr, DecidableEq

/-- A stake taken or sent; with the one that is sent, the owner at that time. -/
inductive StakeMovement where
  | deposited
      (messageHash : Bytes32)
      (challenger : Address)
      (amount : Nat)
  | paid
      (messageHash : Bytes32)
      (recipient : Address)
      (amount : Nat)
      (owner : Address)
  deriving Repr, DecidableEq

def StakeMovement.messageHash : StakeMovement → Bytes32
  | .deposited messageHash _ _ => messageHash
  | .paid messageHash _ _ _ => messageHash

/-- The contract's storage and its balance. -/
structure DisputeManager where
  balance : Nat
  owner : Address
  challengeWindow : Nat
  challengeStake : Nat
  disputes : Bytes32 → Dispute
  stakes : Bytes32 → Nat
  authorizedResolvers : Address → Bool
  /-- The status of the reentrancy guard. -/
  entered : Bool
  /-- The last movement first. -/
  ledger : List StakeMovement

inductive DisputeError where
  | MessageNotExposed (messageHash : Bytes32)
  | AlreadyDisputed (messageHash : Bytes32)
  | ChallengeWindowClosed (messageHash : Bytes32)
  | InsufficientStake (required provided : Nat)
  | DisputeNotFound (messageHash : Bytes32)
  | DeadlineNotReached (messageHash : Bytes32)
  | NotAuthorizedResolver
  | OwnableUnauthorizedAccount (account : Address)
  | OwnableInvalidOwner (owner : Address)
  | ReentrancyGuardReentrantCall
  /-- `"Transfer failed"`. -/
  | transferFailed
  /-- A query of the exposure record reverts. -/
  | exposureRecordReverted
  /-- The panic of checked arithmetic. -/
  | panic
  deriving Repr, DecidableEq

/-- What the two queries of the exposure record answer; `none` is a revert. -/
structure ExposureAnswers where
  isExposed : Option Bool
  exposedAt : Option Nat
  deriving Repr, DecidableEq

/-- The calls of the contract, each with its sender and the time of its block,
and ether that arrives without a call. -/
inductive DisputeCall where
  | challenge
      (sender : Address)
      (value timestamp : Nat)
      (exposure : ExposureAnswers)
      (messageHash : Bytes32)
      (evidence : Bytes)
  | resolve
      (sender : Address)
      (messageHash : Bytes32)
      (valid : Bool)
  | claimExpiredDispute
      (sender : Address)
      (timestamp : Nat)
      (messageHash : Bytes32)
  | setChallengeWindow (sender : Address) (window : Nat)
  | setChallengeStake (sender : Address) (stake : Nat)
  | addResolver (sender resolver : Address)
  | removeResolver (sender resolver : Address)
  | transferOwnership (sender newOwner : Address)
  | renounceOwnership (sender : Address)
  | forcedEther (amount : Nat)
  deriving Repr, DecidableEq

namespace DisputeManager

/-- The contract right after deployment. -/
def deployed
    (owner : Address)
    (balance : Nat) : DisputeManager where
  balance := balance
  owner := owner
  challengeWindow := DEFAULT_CHALLENGE_WINDOW
  challengeStake := DEFAULT_CHALLENGE_STAKE
  disputes := fun _ => {
    messageHash := 0
    challenger := 0
    challengedAt := 0
    resolveDeadline := 0
    status := .None
    evidence := [] }
  stakes := fun _ => 0
  authorizedResolvers := fun account => account = owner
  entered := false
  ledger := []

/-- `nonReentrant`, up to the body. -/
def nonReentrant
    {Result : Type}
    (manager : DisputeManager)
    (body : DisputeManager → Except DisputeError Result) :
    Except DisputeError Result :=
  if manager.entered then .error .ReentrancyGuardReentrantCall
  else body { manager with entered := true }

/-- `onlyOwner`. -/
def onlyOwner
    {Result : Type}
    (manager : DisputeManager)
    (sender : Address)
    (body : Except DisputeError Result) : Except DisputeError Result :=
  if sender ≠ manager.owner then
    .error (.OwnableUnauthorizedAccount sender)
  else body

/-- The record `challenge` writes, with its stake. -/
def file
    (manager : DisputeManager)
    (messageHash : Bytes32)
    (dispute : Dispute)
    (value : Nat) : DisputeManager :=
  { manager with
    balance := manager.balance + value
    disputes := Function.update manager.disputes messageHash dispute
    stakes := Function.update manager.stakes messageHash value
    ledger :=
      .deposited messageHash dispute.challenger value :: manager.ledger }

/-- `challenge`. -/
def challenge
    (manager : DisputeManager)
    (sender : Address)
    (value timestamp : Nat)
    (exposure : ExposureAnswers)
    (messageHash : Bytes32)
    (evidence : Bytes) : Except DisputeError DisputeManager :=
  nonReentrant manager fun manager =>
    match exposure.isExposed with
    | none => .error .exposureRecordReverted
    | some false => .error (.MessageNotExposed messageHash)
    | some true =>
        if (manager.disputes messageHash).status = .Challenged then
          .error (.AlreadyDisputed messageHash)
        else
          match exposure.exposedAt with
          | none => .error .exposureRecordReverted
          | some exposedAt =>
              match checkedAdd exposedAt manager.challengeWindow with
              | none => .error .panic
              | some closing =>
                  if timestamp > closing then
                    .error (.ChallengeWindowClosed messageHash)
                  else if value < manager.challengeStake then
                    .error
                      (.InsufficientStake manager.challengeStake value)
                  else
                    match checkedAdd timestamp RESOLUTION_PERIOD with
                    | none => .error .panic
                    | some deadline =>
                        .ok {
                          manager.file messageHash {
                            messageHash := messageHash
                            challenger := sender
                            challengedAt := toUint64 timestamp
                            resolveDeadline := toUint64 deadline
                            status := .Challenged
                            evidence := evidence } value with
                          entered := false }

/-- `dispute.status = status`. -/
def setStatus
    (manager : DisputeManager)
    (messageHash : Bytes32)
    (status : DisputeStatus) : DisputeManager :=
  { manager with
    disputes :=
      Function.update manager.disputes messageHash
        { manager.disputes messageHash with status := status } }

/-- `_stakes[messageHash] = 0`. -/
def clearStake
    (manager : DisputeManager)
    (messageHash : Bytes32) : DisputeManager :=
  { manager with
    stakes := Function.update manager.stakes messageHash 0 }

/-- `recipient.call{ value: amount }("")`; without the funds it fails, and the
`require` after it reverts. -/
def send
    (manager : DisputeManager)
    (messageHash : Bytes32)
    (recipient : Address)
    (amount : Nat) : Except DisputeError (Progress DisputeManager) :=
  if manager.balance < amount then .error .transferFailed
  else
    .ok (.sends manager
      { manager with
        balance := manager.balance - amount
        ledger :=
          .paid messageHash recipient amount manager.owner ::
            manager.ledger })

/-- `resolve`, up to its transfer. -/
def resolve
    (manager : DisputeManager)
    (sender : Address)
    (messageHash : Bytes32)
    (valid : Bool) : Except DisputeError (Progress DisputeManager) :=
  nonReentrant manager fun manager =>
    if manager.authorizedResolvers sender = false then
      .error .NotAuthorizedResolver
    else
      let dispute := manager.disputes messageHash
      if dispute.status ≠ .Challenged then
        .error (.DisputeNotFound messageHash)
      else
        let stake := manager.stakes messageHash
        if valid then
          (manager.setStatus messageHash .Resolved).send messageHash
            manager.owner stake
        else
          (manager.setStatus messageHash .Rejected).send messageHash
            dispute.challenger stake

/-- `claimExpiredDispute`, up to its transfer. -/
def claimExpiredDispute
    (manager : DisputeManager)
    (timestamp : Nat)
    (messageHash : Bytes32) :
    Except DisputeError (Progress DisputeManager) :=
  nonReentrant manager fun manager =>
    let dispute := manager.disputes messageHash
    if dispute.status ≠ .Challenged then
      .error (.DisputeNotFound messageHash)
    else if timestamp < dispute.resolveDeadline then
      .error (.DeadlineNotReached messageHash)
    else
      let stake := manager.stakes messageHash
      ((manager.setStatus messageHash .Rejected).clearStake
        messageHash).send messageHash dispute.challenger stake

/-- A call, up to its transfer if it makes one. -/
def start
    (manager : DisputeManager) :
    DisputeCall → Except DisputeError (Progress DisputeManager)
  | .challenge sender value timestamp exposure messageHash evidence =>
      Progress.returned <$>
        manager.challenge sender value timestamp exposure messageHash
          evidence
  | .resolve sender messageHash valid =>
      manager.resolve sender messageHash valid
  | .claimExpiredDispute _ timestamp messageHash =>
      manager.claimExpiredDispute timestamp messageHash
  | .setChallengeWindow sender window =>
      manager.onlyOwner sender
        (.ok (.returned { manager with challengeWindow := window }))
  | .setChallengeStake sender stake =>
      manager.onlyOwner sender
        (.ok (.returned { manager with challengeStake := stake }))
  | .addResolver sender resolver =>
      manager.onlyOwner sender
        (.ok (.returned { manager with
          authorizedResolvers :=
            Function.update manager.authorizedResolvers resolver true }))
  | .removeResolver sender resolver =>
      manager.onlyOwner sender
        (.ok (.returned { manager with
          authorizedResolvers :=
            Function.update manager.authorizedResolvers resolver false }))
  | .transferOwnership sender newOwner =>
      manager.onlyOwner sender
        (if newOwner = 0 then .error (.OwnableInvalidOwner 0)
        else .ok (.returned { manager with owner := newOwner }))
  | .renounceOwnership sender =>
      manager.onlyOwner sender
        (.ok (.returned { manager with owner := 0 }))
  | .forcedEther amount =>
      .ok (.returned { manager with balance := manager.balance + amount })

/-- A call from its transfer on; only the two that make one get here. -/
def finish
    (manager : DisputeManager)
    (call : DisputeCall)
    (sent : Bool) : Except DisputeError DisputeManager :=
  if sent = false then .error .transferFailed
  else
    match call with
    | .resolve _ messageHash _ =>
        .ok { manager.clearStake messageHash with entered := false }
    | .claimExpiredDispute _ _ _ => .ok { manager with entered := false }
    | _ => .ok manager

/-- The contract as the machine runs it. -/
def contracts :
    Contracts DisputeManager DisputeCall DisputeError where
  start := start
  finish := finish

/-- What a hash holds: the challenger and stake of an open dispute. -/
def held
    (manager : DisputeManager)
    (messageHash : Bytes32) : Option (Address × Nat) :=
  if (manager.disputes messageHash).status = .Challenged then
    some ((manager.disputes messageHash).challenger,
      manager.stakes messageHash)
  else none

/-- The balance covers the stakes of the open disputes. -/
def Solvent (manager : DisputeManager) : Prop :=
  ∀ hashes : Finset Bytes32,
    (∀ messageHash ∈ hashes,
      (manager.disputes messageHash).status = .Challenged) →
    ∑ messageHash ∈ hashes, manager.stakes messageHash ≤ manager.balance

/-- The ledger of one hash: a stake is taken when none is held, and one that is
held is sent at most once, in full, to its challenger or to the owner. -/
inductive Accounted (messageHash : Bytes32) :
    List StakeMovement → Option (Address × Nat) → Prop where
  | empty : Accounted messageHash [] none
  | elsewhere
      {older : List StakeMovement}
      {held : Option (Address × Nat)}
      (movement : StakeMovement) :
      movement.messageHash ≠ messageHash →
      Accounted messageHash older held →
      Accounted messageHash (movement :: older) held
  | deposited
      {older : List StakeMovement}
      (challenger : Address)
      (amount : Nat) :
      Accounted messageHash older none →
      Accounted messageHash
        (.deposited messageHash challenger amount :: older)
        (some (challenger, amount))
  | paid
      {older : List StakeMovement}
      {challenger : Address}
      {amount : Nat}
      (recipient owner : Address) :
      recipient = challenger ∨ recipient = owner →
      Accounted messageHash older (some (challenger, amount)) →
      Accounted messageHash
        (.paid messageHash recipient amount owner :: older) none

/-- Every hash is accounted for, up to what it holds. -/
def Reconciled (manager : DisputeManager) : Prop :=
  ∀ messageHash,
    Accounted messageHash manager.ledger (manager.held messageHash)

/-- A call only changed the settings, or ether arrived. -/
structure Settings
    (manager : DisputeManager)
    (call : DisputeCall)
    (next : DisputeManager) : Prop where
  disputes : next.disputes = manager.disputes
  stakes : next.stakes = manager.stakes
  ledger : next.ledger = manager.ledger
  entered : next.entered = manager.entered
  balance : manager.balance ≤ next.balance
  challengeWindow :
    next.challengeWindow = manager.challengeWindow ∨
      call = .setChallengeWindow manager.owner next.challengeWindow

/-- A dispute was filed on a hash without an open one. -/
structure Files
    (manager : DisputeManager)
    (messageHash : Bytes32)
    (next : DisputeManager) : Prop where
  closed : (manager.disputes messageHash).status ≠ .Challenged
  filed :
    ∃ (dispute : Dispute) (value : Nat),
      dispute.status = .Challenged ∧
        next = { manager.file messageHash dispute value with
          entered := false }

/-- An open dispute was closed, and its stake sent. -/
structure PaysOut
    (manager : DisputeManager)
    (messageHash : Bytes32)
    (paid : DisputeManager) : Prop where
  opened : (manager.disputes messageHash).status = .Challenged
  closed : (paid.disputes messageHash).status ≠ .Challenged
  disputes :
    ∀ other, other ≠ messageHash →
      paid.disputes other = manager.disputes other
  stakes :
    ∀ other, other ≠ messageHash →
      paid.stakes other = manager.stakes other
  funded : manager.stakes messageHash ≤ manager.balance
  balance : paid.balance = manager.balance - manager.stakes messageHash
  ledger :
    ∃ recipient owner,
      (recipient = (manager.disputes messageHash).challenger ∨
          recipient = owner) ∧
        paid.ledger =
          .paid messageHash recipient (manager.stakes messageHash) owner ::
            manager.ledger
  entered : paid.entered = true
  challengeWindow : paid.challengeWindow = manager.challengeWindow

/-- The hash whose stake a call sends. -/
def settles : DisputeCall → Option Bytes32
  | .resolve _ messageHash _ => some messageHash
  | .claimExpiredDispute _ _ messageHash => some messageHash
  | _ => none

theorem nonReentrant_ok
    {Result : Type}
    {manager : DisputeManager}
    {body : DisputeManager → Except DisputeError Result}
    {result : Result}
    (ran : nonReentrant manager body = .ok result) :
    manager.entered = false ∧
      body { manager with entered := true } = .ok result := by
  unfold nonReentrant at ran
  split at ran
  · cases ran
  · rename_i unlocked
    exact ⟨Bool.eq_false_iff.mpr unlocked, ran⟩

theorem onlyOwner_ok
    {Result : Type}
    {manager : DisputeManager}
    {sender : Address}
    {body : Except DisputeError Result}
    {result : Result}
    (ran : manager.onlyOwner sender body = .ok result) :
    sender = manager.owner ∧ body = .ok result := by
  unfold onlyOwner at ran
  split at ran
  · cases ran
  · rename_i owns
    exact ⟨not_not.mp owns, ran⟩

/-- A challenge that goes through files a dispute on an exposed message whose
window is open. -/
theorem challenge_ok
    {manager next : DisputeManager}
    {sender : Address}
    {value timestamp : Nat}
    {exposure : ExposureAnswers}
    {messageHash : Bytes32}
    {evidence : Bytes}
    (ran :
      manager.challenge sender value timestamp exposure messageHash
        evidence = .ok next) :
    manager.entered = false ∧ Files manager messageHash next ∧
      exposure.isExposed = some true ∧
        ∃ exposedAt,
          exposure.exposedAt = some exposedAt ∧
            timestamp ≤ exposedAt + manager.challengeWindow := by
  obtain ⟨unlocked, body⟩ := nonReentrant_ok ran
  refine ⟨unlocked, ?_⟩
  split at body
  · cases body
  · cases body
  · rename_i isExposed
    split at body
    · cases body
    · rename_i closed
      split at body
      · cases body
      · rename_i exposedAt answered
        split at body
        · cases body
        · rename_i closing added
          split at body
          · cases body
          · rename_i inTime
            split at body
            · cases body
            · split at body
              · cases body
              · have sum := checkedAdd_eq added
                cases body
                exact ⟨{
                    closed := closed
                    filed := ⟨_, value, rfl, rfl⟩ },
                  isExposed, exposedAt, answered,
                  sum ▸ not_lt.mp inTime⟩

/-- A transfer that is made has its funds. -/
theorem send_ok
    {manager : DisputeManager}
    {messageHash : Bytes32}
    {recipient : Address}
    {amount : Nat}
    {progress : Progress DisputeManager}
    (ran : manager.send messageHash recipient amount = .ok progress) :
    amount ≤ manager.balance ∧
      progress = .sends manager
        { manager with
          balance := manager.balance - amount
          ledger :=
            .paid messageHash recipient amount manager.owner ::
              manager.ledger } := by
  unfold send at ran
  split at ran
  · cases ran
  · rename_i funded
    cases ran
    exact ⟨not_lt.mp funded, rfl⟩

/-- Closing an open dispute and sending its stake, with or without clearing it
first. -/
theorem paysOut_of_send
    {manager closed : DisputeManager}
    {messageHash : Bytes32}
    {recipient : Address}
    {progress : Progress DisputeManager}
    (ran :
      closed.send messageHash recipient (manager.stakes messageHash) =
        .ok progress)
    (opened : (manager.disputes messageHash).status = .Challenged)
    (closes : (closed.disputes messageHash).status ≠ .Challenged)
    (disputes :
      ∀ other, other ≠ messageHash →
        closed.disputes other = manager.disputes other)
    (stakes :
      ∀ other, other ≠ messageHash →
        closed.stakes other = manager.stakes other)
    (balance : closed.balance = manager.balance)
    (ledger : closed.ledger = manager.ledger)
    (entered : closed.entered = true)
    (challengeWindow : closed.challengeWindow = manager.challengeWindow)
    (entitled :
      recipient = (manager.disputes messageHash).challenger ∨
        recipient = closed.owner) :
    ∃ unpaid paid,
      progress = .sends unpaid paid ∧ PaysOut manager messageHash paid := by
  obtain ⟨funded, rfl⟩ := send_ok ran
  exact ⟨closed, _, rfl, {
    opened := opened
    closed := closes
    disputes := disputes
    stakes := stakes
    funded := balance ▸ funded
    balance := by rw [balance]
    ledger := ⟨recipient, closed.owner, entitled, by rw [ledger]⟩
    entered := entered
    challengeWindow := challengeWindow }⟩

theorem resolve_ok
    {manager : DisputeManager}
    {sender : Address}
    {messageHash : Bytes32}
    {valid : Bool}
    {progress : Progress DisputeManager}
    (ran : manager.resolve sender messageHash valid = .ok progress) :
    manager.entered = false ∧
      ∃ unpaid paid,
        progress = .sends unpaid paid ∧
          PaysOut manager messageHash paid := by
  obtain ⟨unlocked, body⟩ := nonReentrant_ok ran
  refine ⟨unlocked, ?_⟩
  split at body
  · cases body
  · dsimp only at body
    split at body
    · cases body
    · rename_i opened
      have isOpen :
          (manager.disputes messageHash).status = .Challenged :=
        not_not.mp opened
      split at body
      · exact paysOut_of_send body isOpen
          (by simp [setStatus])
          (fun other different => by simp [setStatus, different])
          (fun _ _ => rfl) rfl rfl rfl rfl (.inr rfl)
      · exact paysOut_of_send body isOpen
          (by simp [setStatus])
          (fun other different => by simp [setStatus, different])
          (fun _ _ => rfl) rfl rfl rfl rfl (.inl rfl)

theorem claimExpiredDispute_ok
    {manager : DisputeManager}
    {timestamp : Nat}
    {messageHash : Bytes32}
    {progress : Progress DisputeManager}
    (ran :
      manager.claimExpiredDispute timestamp messageHash = .ok progress) :
    manager.entered = false ∧
      ∃ unpaid paid,
        progress = .sends unpaid paid ∧
          PaysOut manager messageHash paid := by
  obtain ⟨unlocked, body⟩ := nonReentrant_ok ran
  refine ⟨unlocked, ?_⟩
  dsimp only at body
  split at body
  · cases body
  · rename_i opened
    split at body
    · cases body
    · exact paysOut_of_send body (not_not.mp opened)
        (by simp [setStatus, clearStake])
        (fun other different => by
          simp [setStatus, clearStake, different])
        (fun other different => by
          simp [setStatus, clearStake, different])
        rfl rfl rfl rfl (.inl rfl)

/-- What a call does up to its transfer: it changes settings, files a dispute,
or pays a stake out.  Behind the guard only the first happens. -/
theorem start_ok
    {manager : DisputeManager}
    {call : DisputeCall}
    {progress : Progress DisputeManager}
    (ran : manager.start call = .ok progress) :
    (∃ next, progress = .returned next ∧ Settings manager call next) ∨
    (∃ sender value timestamp exposure messageHash evidence next,
      call =
          .challenge sender value timestamp exposure messageHash evidence ∧
        manager.challenge sender value timestamp exposure messageHash
            evidence = .ok next ∧
          progress = .returned next) ∨
    manager.entered = false ∧
      ∃ messageHash unpaid paid,
        settles call = some messageHash ∧
          progress = .sends unpaid paid ∧
            PaysOut manager messageHash paid := by
  cases call with
  | challenge sender value timestamp exposure messageHash evidence =>
      simp only [start] at ran
      cases challenged :
          manager.challenge sender value timestamp exposure messageHash
            evidence with
      | error reason =>
          simp [challenged] at ran
      | ok next =>
          simp only [challenged] at ran
          cases ran
          exact .inr (.inl ⟨sender, value, timestamp, exposure,
            messageHash, evidence, next, rfl, challenged, rfl⟩)
  | resolve sender messageHash valid =>
      obtain ⟨unlocked, unpaid, paid, sends, pays⟩ := resolve_ok ran
      exact .inr (.inr
        ⟨unlocked, messageHash, unpaid, paid, rfl, sends, pays⟩)
  | claimExpiredDispute sender timestamp messageHash =>
      obtain ⟨unlocked, unpaid, paid, sends, pays⟩ :=
        claimExpiredDispute_ok ran
      exact .inr (.inr
        ⟨unlocked, messageHash, unpaid, paid, rfl, sends, pays⟩)
  | setChallengeWindow sender window =>
      obtain ⟨rfl, set⟩ := onlyOwner_ok ran
      cases set
      exact .inl
        ⟨_, rfl, ⟨rfl, rfl, rfl, rfl, Nat.le_refl _, .inr rfl⟩⟩
  | setChallengeStake sender stake =>
      cases (onlyOwner_ok ran).2
      exact .inl
        ⟨_, rfl, ⟨rfl, rfl, rfl, rfl, Nat.le_refl _, .inl rfl⟩⟩
  | addResolver sender resolver =>
      cases (onlyOwner_ok ran).2
      exact .inl
        ⟨_, rfl, ⟨rfl, rfl, rfl, rfl, Nat.le_refl _, .inl rfl⟩⟩
  | removeResolver sender resolver =>
      cases (onlyOwner_ok ran).2
      exact .inl
        ⟨_, rfl, ⟨rfl, rfl, rfl, rfl, Nat.le_refl _, .inl rfl⟩⟩
  | transferOwnership sender newOwner =>
      have set := (onlyOwner_ok ran).2
      split at set
      · cases set
      · cases set
        exact .inl
          ⟨_, rfl, ⟨rfl, rfl, rfl, rfl, Nat.le_refl _, .inl rfl⟩⟩
  | renounceOwnership sender =>
      cases (onlyOwner_ok ran).2
      exact .inl
        ⟨_, rfl, ⟨rfl, rfl, rfl, rfl, Nat.le_refl _, .inl rfl⟩⟩
  | forcedEther amount =>
      cases ran
      exact .inl
        ⟨_, rfl, ⟨rfl, rfl, rfl, rfl, Nat.le_add_right _ _, .inl rfl⟩⟩

/-- Only an accepted challenge opens a dispute. -/
theorem start_opens
    {manager : DisputeManager}
    {call : DisputeCall}
    {progress : Progress DisputeManager}
    (ran : manager.start call = .ok progress)
    {messageHash : Bytes32}
    (opened :
      (progress.reached.disputes messageHash).status = .Challenged) :
    (manager.disputes messageHash).status = .Challenged ∨
      ∃ sender value timestamp exposure evidence next,
        call =
          .challenge sender value timestamp exposure messageHash evidence ∧
        manager.challenge sender value timestamp exposure messageHash
          evidence = .ok next := by
  rcases start_ok ran with
    ⟨next, rfl, settings⟩ |
    ⟨sender, value, timestamp, exposure, filed, evidence, next, rfl,
      challenged, rfl⟩ |
    ⟨-, settled, unpaid, paid, -, rfl, pays⟩
  · exact .inl (by
      simpa [Progress.reached, settings.disputes] using opened)
  · by_cases same : messageHash = filed
    · subst same
      exact .inr ⟨sender, value, timestamp, exposure, evidence, next, rfl,
        challenged⟩
    · obtain ⟨-, ⟨-, dispute, staked, -, rfl⟩, -⟩ :=
        challenge_ok challenged
      exact .inl (by simpa [Progress.reached, file, same] using opened)
  · by_cases same : messageHash = settled
    · subst same
      exact absurd opened pays.closed
    · exact .inl (by
        simpa [Progress.reached, pays.disputes messageHash same]
          using opened)

/-- Only the owner changes the challenge window. -/
theorem start_challengeWindow
    {manager : DisputeManager}
    {call : DisputeCall}
    {progress : Progress DisputeManager}
    (ran : manager.start call = .ok progress) :
    progress.reached.challengeWindow = manager.challengeWindow ∨
      call =
        .setChallengeWindow manager.owner
          progress.reached.challengeWindow := by
  rcases start_ok ran with
    ⟨next, rfl, settings⟩ |
    ⟨_, _, _, _, _, _, next, -, challenged, rfl⟩ |
    ⟨-, _, unpaid, paid, -, rfl, pays⟩
  · exact settings.challengeWindow
  · obtain ⟨-, ⟨-, dispute, staked, -, rfl⟩, -⟩ :=
      challenge_ok challenged
    exact .inl rfl
  · exact .inl pays.challengeWindow

/-- What holds of the contract while calls wait for their recipients. -/
structure Sound
    (manager : DisputeManager)
    (waiting : List DisputeCall) : Prop where
  solvent : manager.Solvent
  reconciled : manager.Reconciled
  /-- The guard is up exactly while a call waits. -/
  guarded : manager.entered = !waiting.isEmpty
  alone : waiting.length ≤ 1
  /-- A dispute whose stake is on its way is no longer open. -/
  closed :
    ∀ call ∈ waiting, ∃ messageHash,
      settles call = some messageHash ∧
        (manager.disputes messageHash).status ≠ .Challenged

theorem Settings.held
    {manager next : DisputeManager}
    {call : DisputeCall}
    (settings : Settings manager call next) :
    next.held = manager.held := by
  funext messageHash
  simp only [DisputeManager.held, settings.disputes, settings.stakes]

theorem Settings.sound
    {manager next : DisputeManager}
    {call : DisputeCall}
    {waiting : List DisputeCall}
    (settings : Settings manager call next)
    (sound : Sound manager waiting) :
    Sound next waiting where
  solvent := by
    intro hashes opened
    rw [settings.stakes]
    rw [settings.disputes] at opened
    exact (sound.solvent hashes opened).trans settings.balance
  reconciled := by
    intro messageHash
    rw [settings.ledger, settings.held]
    exact sound.reconciled messageHash
  guarded := settings.entered.trans sound.guarded
  alone := sound.alone
  closed := by
    rw [settings.disputes]
    exact sound.closed

/-- The guard keeps a dispute from being filed while a call waits. -/
theorem Sound.idle
    {manager : DisputeManager}
    {waiting : List DisputeCall}
    (sound : Sound manager waiting)
    (unlocked : manager.entered = false) :
    waiting = [] := by
  have guarded := sound.guarded
  rw [unlocked] at guarded
  simpa using guarded

theorem Files.solvent
    {manager next : DisputeManager}
    {messageHash : Bytes32}
    (files : Files manager messageHash next)
    (solvent : manager.Solvent) :
    next.Solvent := by
  obtain ⟨dispute, value, -, rfl⟩ := files.filed
  intro hashes opened
  have others :
      ∑ other ∈ hashes.erase messageHash, manager.stakes other ≤
        manager.balance := by
    apply solvent
    intro other member
    obtain ⟨different, inHashes⟩ := Finset.mem_erase.mp member
    simpa [file, different] using opened other inHashes
  have same :
      ∑ other ∈ hashes.erase messageHash,
          Function.update manager.stakes messageHash value other =
        ∑ other ∈ hashes.erase messageHash, manager.stakes other :=
    Finset.sum_congr rfl fun other member =>
      Function.update_of_ne (Finset.ne_of_mem_erase member) _ _
  have split :
      ∑ other ∈ hashes,
          Function.update manager.stakes messageHash value other ≤
        ∑ other ∈ hashes.erase messageHash,
            Function.update manager.stakes messageHash value other +
          value := by
    by_cases member : messageHash ∈ hashes
    · rw [← Finset.sum_erase_add _ _ member, Function.update_self]
    · rw [Finset.erase_eq_of_notMem member]
      exact Nat.le_add_right _ _
  calc ∑ other ∈ hashes,
        Function.update manager.stakes messageHash value other
      ≤ ∑ other ∈ hashes.erase messageHash, manager.stakes other +
          value := same ▸ split
    _ ≤ manager.balance + value := Nat.add_le_add_right others value

theorem Files.reconciled
    {manager next : DisputeManager}
    {messageHash : Bytes32}
    (files : Files manager messageHash next)
    (reconciled : manager.Reconciled) :
    next.Reconciled := by
  obtain ⟨dispute, value, isOpen, rfl⟩ := files.filed
  intro other
  have before := reconciled other
  by_cases same : other = messageHash
  · subst same
    simp only [held, files.closed, if_false] at before
    simpa [held, file, isOpen] using before.deposited _ _
  · have unchanged :
        ({ manager.file messageHash dispute value with
          entered := false } : DisputeManager).held other =
          manager.held other := by
      simp [held, file, same]
    rw [unchanged]
    exact before.elsewhere _ fun equal => same equal.symm

/-- Filing a dispute, which only an idle contract does. -/
theorem Files.sound
    {manager next : DisputeManager}
    {messageHash : Bytes32}
    {waiting : List DisputeCall}
    (files : Files manager messageHash next)
    (idle : waiting = [])
    (sound : Sound manager waiting) :
    Sound next waiting where
  solvent := files.solvent sound.solvent
  reconciled := files.reconciled sound.reconciled
  guarded := by
    obtain ⟨dispute, value, -, rfl⟩ := files.filed
    rw [idle]
    rfl
  alone := sound.alone
  closed := by
    rw [idle]
    intro call member
    cases member

theorem PaysOut.solvent
    {manager paid : DisputeManager}
    {messageHash : Bytes32}
    (pays : PaysOut manager messageHash paid)
    (solvent : manager.Solvent) :
    paid.Solvent := by
  intro hashes opened
  have fresh : messageHash ∉ hashes := fun member =>
    pays.closed (opened messageHash member)
  have different :
      ∀ other ∈ hashes, other ≠ messageHash := fun other member same =>
    fresh (same ▸ member)
  have all := solvent (insert messageHash hashes) (by
    intro other member
    rcases Finset.mem_insert.mp member with same | inHashes
    · rw [same]
      exact pays.opened
    · rw [← pays.disputes other (different other inHashes)]
      exact opened other inHashes)
  rw [Finset.sum_insert fresh] at all
  rw [pays.balance, Finset.sum_congr rfl fun other member =>
    pays.stakes other (different other member)]
  exact Nat.le_sub_of_add_le' all

theorem PaysOut.reconciled
    {manager paid : DisputeManager}
    {messageHash : Bytes32}
    (pays : PaysOut manager messageHash paid)
    (reconciled : manager.Reconciled) :
    paid.Reconciled := by
  obtain ⟨recipient, owner, entitled, ledger⟩ := pays.ledger
  intro other
  have before := reconciled other
  rw [ledger]
  by_cases same : other = messageHash
  · subst same
    simp only [held, pays.opened, if_true] at before
    simp only [held, pays.closed, if_false]
    exact before.paid recipient owner entitled
  · have unchanged : paid.held other = manager.held other := by
      simp only [held, pays.disputes other same, pays.stakes other same]
    rw [unchanged]
    exact before.elsewhere _ fun equal => same equal.symm

/-- A payout, which only an idle contract makes. -/
theorem PaysOut.sound
    {manager paid : DisputeManager}
    {messageHash : Bytes32}
    {waiting : List DisputeCall}
    {call : DisputeCall}
    (pays : PaysOut manager messageHash paid)
    (settled : settles call = some messageHash)
    (idle : waiting = [])
    (sound : Sound manager waiting) :
    Sound paid (call :: waiting) where
  solvent := pays.solvent sound.solvent
  reconciled := pays.reconciled sound.reconciled
  guarded := pays.entered
  alone := by simp [idle]
  closed := by
    rw [idle]
    intro inFlight member
    rw [List.mem_singleton] at member
    rw [member]
    exact ⟨messageHash, settled, pays.closed⟩

/-- Clearing the stake of a hash without an open dispute changes nothing that
is held. -/
theorem sound_clearStake
    {manager : DisputeManager}
    {messageHash : Bytes32}
    (closed : (manager.disputes messageHash).status ≠ .Challenged)
    (solvent : manager.Solvent)
    (reconciled : manager.Reconciled) :
    (manager.clearStake messageHash).Solvent ∧
      (manager.clearStake messageHash).Reconciled := by
  constructor
  · intro hashes opened
    have same :
        ∑ other ∈ hashes, (manager.clearStake messageHash).stakes other =
          ∑ other ∈ hashes, manager.stakes other :=
      Finset.sum_congr rfl fun other member =>
        Function.update_of_ne (by
          intro equal
          rw [equal] at member
          exact closed (opened messageHash member)) _ _
    rw [same]
    exact solvent hashes opened
  · intro other
    have unchanged :
        (manager.clearStake messageHash).held other =
          manager.held other := by
      by_cases same : other = messageHash
      · subst same
        simp [held, clearStake, closed]
      · simp [held, clearStake, same]
    rw [unchanged]
    exact reconciled other

/-- A call that goes on after its transfer leaves what is held as it is. -/
theorem finish_sound
    {manager next : DisputeManager}
    {call : DisputeCall}
    {waiting : List DisputeCall}
    (sound : Sound manager (call :: waiting))
    (ran : manager.finish call true = .ok next) :
    Sound next waiting := by
  have idle : waiting = [] := by
    simpa using sound.alone
  subst idle
  obtain ⟨messageHash, settled, closed⟩ := sound.closed call (by simp)
  have cleared :=
    sound_clearStake closed sound.solvent sound.reconciled
  cases call with
  | resolve sender disputed valid =>
      cases settled
      cases ran
      exact {
        solvent := cleared.1
        reconciled := cleared.2
        guarded := rfl
        alone := Nat.zero_le _
        closed := by simp }
  | claimExpiredDispute sender timestamp disputed =>
      cases ran
      exact {
        solvent := sound.solvent
        reconciled := sound.reconciled
        guarded := rfl
        alone := Nat.zero_le _
        closed := by simp }
  | _ => cases settled

/-- The contract keeps `Sound`, whatever is called. -/
theorem kept :
    Kept contracts Sound fun _ _ => True where
  returned := by
    intro manager next waiting call sound _ ran
    rcases start_ok ran with
      ⟨settled, returned, settings⟩ |
      ⟨_, _, _, _, messageHash, _, filed, _, challenged, returned⟩ |
      ⟨_, _, _, _, _, returned, _⟩
    · cases returned
      exact settings.sound sound
    · cases returned
      obtain ⟨unlocked, files, -⟩ := challenge_ok challenged
      exact files.sound (sound.idle unlocked) sound
    · cases returned
  sends := by
    intro manager unpaid paid waiting call sound _ ran
    rcases start_ok ran with
      ⟨_, returned, _⟩ |
      ⟨_, _, _, _, _, _, _, _, _, returned⟩ |
      ⟨unlocked, messageHash, _, _, settled, returned, pays⟩
    · cases returned
    · cases returned
    · cases returned
      exact pays.sound settled (sound.idle unlocked) sound
  finished := fun sound ran => finish_sound sound ran
  required := by
    intro manager next call ran
    cases ran

theorem sound_deployed
    (owner : Address)
    (balance : Nat) :
    Sound (deployed owner balance) [] where
  solvent := by
    intro hashes _
    simp [deployed]
  reconciled := fun messageHash => .empty
  guarded := rfl
  alone := Nat.zero_le _
  closed := by simp

/-- In every state of every run, inside the turn of a recipient too, the balance
covers the stakes of the open disputes and every stake is accounted for; and a
payout whose recipient reverts, whatever it did before, leaves no trace. -/
theorem stakes_safe
    (owner : Address)
    (balance : Nat)
    (events : List (Event DisputeCall)) :
    Runs.AllStates (step contracts)
      (fun state =>
        state.world.Solvent ∧ state.world.Reconciled ∧
          ∀ (call : DisputeCall)
            (opened inner : State DisputeManager DisputeCall)
            (turn : List (Event DisputeCall)),
            step contracts state (.call call) = some opened →
            opened.frames ≠ state.frames →
            Runs.exec? (step contracts) opened turn = some inner →
            inner.frames = opened.frames →
            step contracts inner .reverts = some state)
      (idle (deployed owner balance)) events :=
  Runs.AllStates.mono
    (fun state sound => ⟨sound.solvent, sound.reconciled,
      fun call opened inner turn taken waits _ same =>
        reverts_restores kept taken waits same⟩)
    (allStates_of_kept kept (sound_deployed owner balance)
      (Runs.AllSteps.of_forall
        (fun state event => by cases event <;> trivial) _ events))

end DisputeManager

end Bam
