import Bam.Contracts.BLSRegistry
import Bam.Contracts.ExposedSignatures

namespace Bam

open Bytewise

/-!
# The contracts of the first version, together

The core logs what accounts register and calls its hook, the verifier, which
answers the exposer.  The keys are in the BLS registry.  Any account calls any
of the contracts, in any order.
-/

/-- The storage of `SimpleBoolVerifier`. -/
structure SimpleBoolVerifier where
  core : Address
  registered : Bytes32 → Bool

namespace SimpleBoolVerifier

inductive Error where
  | OnlyCore
  | CoreAlreadySet
  | OnlyDeployer
  | ZeroCoreAddress
  deriving Repr, DecidableEq

/-- The storage right after deployment. -/
def initial : SimpleBoolVerifier where
  core := 0
  registered := fun _ => false

/-- `setCore`. -/
def setCore
    (deployer msgSender core : Address)
    (verifier : SimpleBoolVerifier) :
    Except Error SimpleBoolVerifier :=
  if msgSender ≠ deployer then .error .OnlyDeployer
  else if verifier.core ≠ 0 then .error .CoreAlreadySet
  else if core = 0 then .error .ZeroCoreAddress
  else .ok { verifier with core := core }

/-- `onRegistered`. -/
def onRegistered
    (msgSender : Address)
    (contentHash : Bytes32)
    (verifier : SimpleBoolVerifier) :
    Except Error SimpleBoolVerifier :=
  if msgSender ≠ verifier.core then .error .OnlyCore
  else
    .ok { verifier with
      registered := Function.update verifier.registered contentHash true }

/-- `verifyRegistration`, which uses neither the core nor the proof it is
given. -/
def verifyRegistration
    (verifier : SimpleBoolVerifier)
    (contentHash : Bytes32)
    (_registrationProof : Bytes) : Bool :=
  verifier.registered contentHash

end SimpleBoolVerifier

namespace SocialBlobs

/-- A log of `SocialBlobsCore`. -/
inductive Log where
  | BlobRegistered
      (versionedHash : Bytes32)
      (submitter : Address)
      (timestamp : Nat)
  | CalldataRegistered
      (contentHash : Bytes32)
      (submitter : Address)
      (timestamp : Nat)
      (dataSize : Nat)
  deriving Repr, DecidableEq

/-- The content that a log is about. -/
def Log.contentHash : Log → Bytes32
  | .BlobRegistered versionedHash _ _ => versionedHash
  | .CalldataRegistered contentHash _ _ _ => contentHash

inductive CoreError where
  | InvalidBlobIndex (blobIndex : BitVec 256)
  | hook (error : SimpleBoolVerifier.Error)
  deriving Repr, DecidableEq

/-- The contracts after their constructors. -/
structure Deployment where
  exposer : BLSExposer.Deployment
  registry : BLSRegistry.Deployment
  deployer : Address
  core : Address
  coreNotZero : core ≠ 0
  /-- The hook of the core is the verifier; else it has none. -/
  hooked : Bool

/-- The storage of the contracts, the logs of the core and the keys that the
registry has accepted, the latest first. -/
structure Stack where
  verifier : SimpleBoolVerifier
  registry : BLSRegistry
  history : BLSExposer.History
  logs : List Log
  accepted : List BLSRegistry.Presented

def Stack.initial : Stack where
  verifier := .initial
  registry := .initial
  history := .deployed .initial
  logs := []
  accepted := []

/-- The block and the gas of a call of the exposer. -/
structure Circumstances where
  blockTimestamp : Nat
  checkOutOfGas : Bool
  recordOutOfGas : Bool
  deriving Repr, DecidableEq

/-- What the exposer meets in the other contracts. -/
def Stack.surroundings
    (stack : Stack)
    (circumstances : Circumstances) : BLSExposer.Surroundings where
  blockTimestamp := circumstances.blockTimestamp
  verifyRegistration := stack.verifier.verifyRegistration
  getKey := stack.registry.getKey
  checkOutOfGas := circumstances.checkOutOfGas
  recordOutOfGas := circumstances.recordOutOfGas

/-- A call of one of the contracts, by any account. -/
inductive Call where
  | setCore (msgSender core : Address)
  | onRegistered (msgSender : Address) (contentHash : Bytes32)
  | registerBlob
      (msgSender : Address)
      (blockTimestamp : Nat)
      (blobhash : BitVec 256 → Bytes32)
      (blobIndex : BitVec 256)
  | registerCalldata
      (msgSender : Address)
      (blockTimestamp : Nat)
      (batchData : Bytes)
  | key (call : BLSRegistry.Call)
  | expose
      (circumstances : Circumstances)
      (params : BLSExposer.BlobParams)
  | exposeFromCalldata
      (circumstances : Circumstances)
      (params : BLSExposer.CalldataParams)
  | record
      (msgSender : Address)
      (blockTimestamp : Nat)
      (messageHash : Bytes32)
      (sender : Address)
      (contentHash : Bytes32)
      (timestamp : Nat)

/-- The call of the exposer or of its record that a call is. -/
def Call.exposerCall?
    (stack : Stack) : Call → Option BLSExposer.Call
  | .expose circumstances params =>
      some (.expose (stack.surroundings circumstances) params)
  | .exposeFromCalldata circumstances params =>
      some (.exposeFromCalldata (stack.surroundings circumstances) params)
  | .record msgSender blockTimestamp messageHash sender contentHash
      timestamp =>
      some (.record msgSender blockTimestamp messageHash sender
        contentHash timestamp)
  | _ => none

section

variable (deployment : Deployment)

/-- The call of the hook, and the log. -/
def emitRegistered
    (log : Log)
    (stack : Stack) : Except CoreError Stack :=
  if deployment.hooked then
    match stack.verifier.onRegistered deployment.core log.contentHash with
    | .error error => .error (.hook error)
    | .ok verifier =>
        .ok { stack with verifier := verifier, logs := log :: stack.logs }
  else .ok { stack with logs := log :: stack.logs }

/-- `registerBlob`. -/
def registerBlob
    (msgSender : Address)
    (blockTimestamp : Nat)
    (blobhash : BitVec 256 → Bytes32)
    (blobIndex : BitVec 256)
    (stack : Stack) : Except CoreError Stack :=
  if 6 ≤ blobIndex then .error (.InvalidBlobIndex blobIndex)
  else if blobhash blobIndex = 0 then .error (.InvalidBlobIndex blobIndex)
  else
    emitRegistered deployment
      (.BlobRegistered (blobhash blobIndex) msgSender
        (toUint64 blockTimestamp)) stack

/-- `registerCalldata`. -/
def registerCalldata
    (msgSender : Address)
    (blockTimestamp : Nat)
    (batchData : Bytes)
    (stack : Stack) : Except CoreError Stack :=
  emitRegistered deployment
    (.CalldataRegistered (deployment.exposer.keccak256 batchData)
      msgSender (toUint64 blockTimestamp) batchData.length) stack

/-- A call that succeeds.  No call comes from the zero address, and the core
calls the hook only where it registers. -/
def callStep (stack : Stack) (call : Call) : Option Stack :=
  match call with
  | .setCore msgSender core =>
      (stack.verifier.setCore deployment.deployer msgSender
          core).toOption.map
        fun verifier => { stack with verifier := verifier }
  | .onRegistered msgSender contentHash =>
      if msgSender = 0 ∨ msgSender = deployment.core then none
      else
        (stack.verifier.onRegistered msgSender contentHash).toOption.map
          fun verifier => { stack with verifier := verifier }
  | .registerBlob msgSender blockTimestamp blobhash blobIndex =>
      (registerBlob deployment msgSender blockTimestamp blobhash blobIndex
        stack).toOption
  | .registerCalldata msgSender blockTimestamp batchData =>
      (registerCalldata deployment msgSender blockTimestamp batchData
        stack).toOption
  | .key call =>
      (BLSRegistry.callStep deployment.registry stack.registry call).map
        fun registry => { stack with
          registry := registry
          accepted := call.presented?.toList ++ stack.accepted }
  | .expose .. | .exposeFromCalldata .. | .record .. =>
      (call.exposerCall? stack).bind fun exposerCall =>
        (BLSExposer.callStep deployment.exposer stack.history
          exposerCall).map fun history => { stack with history := history }

/-- What a call that succeeds has found, and what it leaves. -/
inductive Takes (stack : Stack) : Call → Stack → Prop where
  /-- The verifier is linked, for the first time. -/
  | linked
      (msgSender core : Address)
      (unlinked : stack.verifier.core = 0)
      (isCore : core ≠ 0) :
      Takes stack (.setCore msgSender core)
        { stack with verifier := { stack.verifier with core := core } }
  /-- The verifier is linked to an account, which registers for itself. -/
  | direct
      (msgSender : Address)
      (contentHash : Bytes32)
      (verifier : SimpleBoolVerifier)
      (isAccount : stack.verifier.core ≠ 0)
      (notCore : stack.verifier.core ≠ deployment.core)
      (kept : verifier.core = stack.verifier.core) :
      Takes stack (.onRegistered msgSender contentHash)
        { stack with verifier := verifier }
  /-- The core registers, with its hook. -/
  | registered
      (call : Call)
      (log : Log)
      (isHooked : deployment.hooked = true)
      (isLinked : stack.verifier.core = deployment.core) :
      Takes stack call { stack with
        verifier := { stack.verifier with
          registered :=
            Function.update stack.verifier.registered log.contentHash
              true }
        logs := log :: stack.logs }
  /-- The core registers, without a hook. -/
  | logged
      (call : Call)
      (log : Log)
      (notHooked : deployment.hooked = false) :
      Takes stack call { stack with logs := log :: stack.logs }
  | key
      (call : BLSRegistry.Call)
      (registry : BLSRegistry)
      (called :
        BLSRegistry.callStep deployment.registry stack.registry call =
          some registry) :
      Takes stack (.key call) { stack with
        registry := registry
        accepted := call.presented?.toList ++ stack.accepted }
  | exposer
      (call : Call)
      (exposerCall : BLSExposer.Call)
      (history : BLSExposer.History)
      (isCall : call.exposerCall? stack = some exposerCall)
      (called :
        BLSExposer.callStep deployment.exposer stack.history exposerCall =
          some history) :
      Takes stack call { stack with history := history }

variable {deployment}

theorem takes_of_emitRegistered
    {stack next : Stack}
    {log : Log}
    {call : Call}
    (emitted :
      (emitRegistered deployment log stack).toOption = some next) :
    Takes deployment stack call next := by
  unfold emitRegistered SimpleBoolVerifier.onRegistered at emitted
  cases isHooked : deployment.hooked with
  | false =>
      rw [isHooked] at emitted
      cases emitted
      exact .logged call log isHooked
  | true =>
      rw [isHooked] at emitted
      by_cases isLinked : deployment.core = stack.verifier.core
      · simp only [isLinked, ne_eq, not_true_eq_false, if_true, if_false]
          at emitted
        cases emitted
        exact .registered call log isHooked isLinked.symm
      · simp only [isLinked, ne_eq, not_false_eq_true, if_true] at emitted
        cases emitted

theorem takes_of_exposerCall
    {stack next : Stack}
    {call : Call}
    (taken :
      ((call.exposerCall? stack).bind fun exposerCall =>
        (BLSExposer.callStep deployment.exposer stack.history
          exposerCall).map fun history =>
            { stack with history := history }) = some next) :
    Takes deployment stack call next := by
  obtain ⟨exposerCall, isCall, mapped⟩ := Option.bind_eq_some_iff.mp taken
  obtain ⟨history, called, rfl⟩ := Option.map_eq_some_iff.mp mapped
  exact .exposer call exposerCall history isCall called

theorem takes_of_callStep
    {stack next : Stack}
    {call : Call}
    (taken : callStep deployment stack call = some next) :
    Takes deployment stack call next := by
  cases call with
  | setCore msgSender core =>
      simp only [callStep, SimpleBoolVerifier.setCore] at taken
      split at taken
      · cases taken
      split at taken
      · cases taken
      rename_i unlinked
      split at taken
      · cases taken
      rename_i isCore
      cases taken
      exact .linked msgSender core (not_not.mp unlinked) isCore
  | onRegistered msgSender contentHash =>
      simp only [callStep, SimpleBoolVerifier.onRegistered] at taken
      split at taken
      · cases taken
      rename_i isOutside
      obtain ⟨notZero, notCore⟩ := not_or.mp isOutside
      split at taken
      · cases taken
      rename_i isLinked
      cases taken
      have isSender := not_not.mp isLinked
      exact .direct msgSender contentHash _ (isSender ▸ notZero)
        (isSender ▸ notCore) rfl
  | registerBlob msgSender blockTimestamp blobhash blobIndex =>
      simp only [callStep, registerBlob] at taken
      split at taken
      · cases taken
      split at taken
      · cases taken
      exact takes_of_emitRegistered taken
  | registerCalldata msgSender blockTimestamp batchData =>
      exact takes_of_emitRegistered taken
  | key call =>
      obtain ⟨registry, called, rfl⟩ := Option.map_eq_some_iff.mp taken
      exact .key call registry called
  | expose circumstances params =>
      exact takes_of_exposerCall taken
  | exposeFromCalldata circumstances params =>
      exact takes_of_exposerCall taken
  | record =>
      exact takes_of_exposerCall taken

end

/-!
## What holds in every run
-/

/-- The contents that the core has logged. -/
def Stack.contentHashes (stack : Stack) : List Bytes32 :=
  stack.logs.map Log.contentHash

/-- The verifier answers for the logs of the core.  It is not linked yet, or to
the core, or to an account, and then a core that calls it logs nothing. -/
inductive Linkage
    (deployment : Deployment)
    (stack : Stack) : Prop where
  | unlinked
      (isZero : stack.verifier.core = 0)
      (empty : ∀ contentHash,
        stack.verifier.registered contentHash = false)
      (silent : deployment.hooked = true → stack.logs = [])
  | core
      (isCore : stack.verifier.core = deployment.core)
      (registered : ∀ contentHash,
        stack.verifier.registered contentHash = true ↔
          deployment.hooked = true ∧ contentHash ∈ stack.contentHashes)
  | account
      (isAccount : stack.verifier.core ≠ 0)
      (notCore : stack.verifier.core ≠ deployment.core)
      (silent : deployment.hooked = true → stack.logs = [])

/-- An account has the key it presented last, with its proof. -/
structure KeysAccepted
    (deployment : Deployment)
    (stack : Stack) : Prop where
  presented :
    ∀ owner, stack.registry.getKey owner ≠ [] →
      ∃ presented ∈ stack.accepted,
        presented.msgSender = owner ∧
          presented.blsPubKey = stack.registry.getKey owner
  possessed :
    ∀ presented ∈ stack.accepted,
      BLSVerifier.verify deployment.registry.bls presented.blsPubKey
          (BLSRegistry.computePopMessage deployment.registry
            presented.msgSender presented.blsPubKey)
          presented.popSignature = .ok true

/-- A message is exposed for content that the core has logged, under a key that
its sender has presented, and its signature was not found wrong. -/
structure Vouched
    (deployment : Deployment)
    (stack : Stack)
    (exposure : BLSExposer.Exposure) : Prop where
  logged :
    stack.verifier.core = 0 ∨
        stack.verifier.core = deployment.core →
      deployment.hooked = true ∧
        exposure.claim.contentHash ∈ stack.contentHashes
  presented :
    ∃ presented ∈ stack.accepted,
      presented.msgSender = exposure.claim.sender ∧
        presented.blsPubKey = exposure.publicKey
  checked :
    (BLSVerifier.verifyBLSExternal deployment.exposer.bls
      exposure.checkOutOfGas exposure.publicKey
      (deployment.exposer.signedHash exposure.claim)
      exposure.claim.signature).getD true = true

structure Sound
    (deployment : Deployment)
    (stack : Stack) : Prop where
  linkage : Linkage deployment stack
  keys : KeysAccepted deployment stack
  exposures :
    ∀ exposure ∈ stack.history.exposures,
      Vouched deployment stack exposure

section

variable {deployment : Deployment}

theorem sound_initial : Sound deployment .initial where
  linkage := .unlinked rfl (fun _ => rfl) fun _ => rfl
  keys := {
    presented := fun _ hasKey => absurd rfl hasKey
    possessed := nofun }
  exposures := nofun

/-- What is vouched for stays so while logs and keys are only added. -/
theorem Vouched.mono
    {stack next : Stack}
    {exposure : BLSExposer.Exposure}
    (vouched : Vouched deployment stack exposure)
    (cores :
      next.verifier.core = 0 ∨ next.verifier.core = deployment.core →
        stack.verifier.core = 0 ∨
          stack.verifier.core = deployment.core)
    (logs : stack.logs ⊆ next.logs)
    (accepted : stack.accepted ⊆ next.accepted) :
    Vouched deployment next exposure where
  logged := fun linked =>
    ⟨(vouched.logged (cores linked)).1,
      List.map_subset _ logs (vouched.logged (cores linked)).2⟩
  presented := by
    obtain ⟨presented, member, isKey⟩ := vouched.presented
    exact ⟨presented, accepted member, isKey⟩
  checked := vouched.checked

theorem registered_of_checkBlob
    {exposer : BLSExposer.Deployment}
    {surroundings : BLSExposer.Surroundings}
    {params : BLSExposer.BlobParams}
    (checked :
      BLSExposer.checkBlob exposer surroundings params = .ok ()) :
    surroundings.verifyRegistration params.versionedHash
      params.registrationProof = true := by
  by_contra notRegistered
  unfold BLSExposer.checkBlob at checked
  rw [if_pos (by simpa using notRegistered)] at checked
  cases checked

theorem registered_of_checkCalldata
    {exposer : BLSExposer.Deployment}
    {surroundings : BLSExposer.Surroundings}
    {params : BLSExposer.CalldataParams}
    (checked :
      BLSExposer.checkCalldata exposer surroundings params = .ok ()) :
    surroundings.verifyRegistration
      (exposer.keccak256 params.batchData)
      params.registrationProof = true := by
  by_contra notRegistered
  unfold BLSExposer.checkCalldata at checked
  dsimp only at checked
  rw [if_pos (by simpa using notRegistered)] at checked
  cases checked

/-- What an exposure of the exposer has found in the other contracts. -/
theorem found_of_claim
    {stack : Stack}
    {call : Call}
    {exposerCall : BLSExposer.Call}
    {history : BLSExposer.History}
    {surroundings : BLSExposer.Surroundings}
    {claim : BLSExposer.Claim}
    (isCall : call.exposerCall? stack = some exposerCall)
    (isClaim :
      exposerCall.claim? deployment.exposer = some (surroundings, claim))
    (called :
      BLSExposer.callStep deployment.exposer stack.history exposerCall =
        some history) :
    surroundings.getKey = stack.registry.getKey ∧
      stack.verifier.registered claim.contentHash = true := by
  cases call with
  | setCore | onRegistered | registerBlob | registerCalldata | key =>
      cases isCall
  | record =>
      cases isCall
      cases isClaim
  | expose circumstances params =>
      cases isCall
      cases isClaim
      simp only [BLSExposer.callStep, BLSExposer.expose] at called
      cases checked : BLSExposer.checkBlob deployment.exposer
          (stack.surroundings circumstances) params with
      | error revert =>
          rw [checked] at called
          cases called
      | ok done => exact ⟨rfl, registered_of_checkBlob checked⟩
  | exposeFromCalldata circumstances params =>
      cases isCall
      cases isClaim
      simp only [BLSExposer.callStep, BLSExposer.exposeFromCalldata]
        at called
      cases checked : BLSExposer.checkCalldata deployment.exposer
          (stack.surroundings circumstances) params with
      | error revert =>
          rw [checked] at called
          cases called
      | ok done => exact ⟨rfl, registered_of_checkCalldata checked⟩

/-- An exposure needs a key. -/
theorem hasKey_of_exposeClaim
    {exposer : BLSExposer.Deployment}
    {surroundings : BLSExposer.Surroundings}
    {claim : BLSExposer.Claim}
    {before after : BLSExposer.Exposer}
    {messageId : Bytes32}
    (exposed :
      BLSExposer.exposeClaim exposer surroundings claim before =
        .ok (messageId, after)) :
    surroundings.getKey claim.sender ≠ [] := by
  intro noKey
  unfold BLSExposer.exposeClaim BLSExposer.verifyBLSSignature at exposed
  rw [noKey] at exposed
  split at exposed
  · cases exposed
  dsimp only at exposed
  split at exposed
  · cases exposed
  · cases exposed

/-- A call of the registry leaves every key accepted. -/
theorem KeysAccepted.key
    {stack : Stack}
    {call : BLSRegistry.Call}
    {registry : BLSRegistry}
    (keys : KeysAccepted deployment stack)
    (called :
      BLSRegistry.callStep deployment.registry stack.registry call =
        some registry) :
    KeysAccepted deployment { stack with
      registry := registry
      accepted := call.presented?.toList ++ stack.accepted } := by
  rcases BLSRegistry.callStep_cases called with
    ⟨presented, isPresented, checked, isNext⟩ |
      ⟨msgSender, rfl, isNext⟩
  · rw [isPresented]
    refine ⟨fun owner hasKey => ?_, fun other member => ?_⟩
    · by_cases isOwner : owner = presented.msgSender
      · subst isOwner
        refine ⟨presented, List.mem_cons_self .., rfl, ?_⟩
        dsimp only
        rw [isNext, Function.update_self]
      · dsimp only at hasKey ⊢
        rw [isNext, Function.update_of_ne isOwner] at hasKey ⊢
        obtain ⟨earlier, member, isEarlier⟩ := keys.presented owner hasKey
        exact ⟨earlier, List.mem_cons_of_mem _ member, isEarlier⟩
    · cases member with
      | head => exact BLSRegistry.verify_of_checkKey checked
      | tail _ member => exact keys.possessed other member
  · refine ⟨fun owner hasKey => ?_, keys.possessed⟩
    dsimp only at hasKey ⊢
    rw [isNext] at hasKey ⊢
    by_cases isOwner : owner = msgSender
    · subst isOwner
      rw [Function.update_self] at hasKey
      exact absurd rfl hasKey
    · rw [Function.update_of_ne isOwner] at hasKey ⊢
      exact keys.presented owner hasKey

/-- A registration by the core, with its hook. -/
theorem Linkage.registered
    {stack : Stack}
    {log : Log}
    (linkage : Linkage deployment stack)
    (isHooked : deployment.hooked = true)
    (isLinked : stack.verifier.core = deployment.core) :
    Linkage deployment { stack with
      verifier := { stack.verifier with
        registered :=
          Function.update stack.verifier.registered log.contentHash
            true }
      logs := log :: stack.logs } := by
  cases linkage with
  | unlinked isZero =>
      exact absurd (isLinked.symm.trans isZero) deployment.coreNotZero
  | account _ notCore =>
      exact absurd isLinked notCore
  | core isCore registered =>
      refine .core isLinked fun contentHash => ?_
      have earlier := registered contentHash
      by_cases isContent : contentHash = log.contentHash
      · subst isContent
        simp [Stack.contentHashes, isHooked]
      · simpa [Stack.contentHashes, Function.update_of_ne isContent,
          isContent] using earlier

/-- A call that succeeds keeps the verifier with the logs. -/
theorem Linkage.step
    {stack next : Stack}
    {call : Call}
    (linkage : Linkage deployment stack)
    (takes : Takes deployment stack call next) :
    Linkage deployment next := by
  cases takes with
  | linked msgSender core unlinked isCore =>
      cases linkage with
      | unlinked isZero empty silent =>
          by_cases same : core = deployment.core
          · refine .core same fun contentHash => ?_
            dsimp only
            rw [empty]
            refine ⟨nofun, fun found => ?_⟩
            have nothing := silent found.1
            simp [Stack.contentHashes, nothing] at found
          · exact .account isCore same silent
      | core isCore =>
          exact absurd (isCore.symm.trans unlinked) deployment.coreNotZero
      | account isAccount =>
          exact absurd unlinked isAccount
  | direct msgSender contentHash verifier isAccount notCore kept =>
      cases linkage with
      | unlinked isZero =>
          exact absurd isZero isAccount
      | core isCore =>
          exact absurd isCore notCore
      | account _ _ silent =>
          refine .account ?_ ?_ silent
          · exact kept ▸ isAccount
          · exact kept ▸ notCore
  | registered call log isHooked isLinked =>
      exact linkage.registered isHooked isLinked
  | logged call log notHooked =>
      have notSilent {allowed : Prop} (isHooked : deployment.hooked = true) :
          allowed := by
        rw [notHooked] at isHooked
        cases isHooked
      cases linkage with
      | unlinked isZero empty =>
          exact .unlinked isZero empty notSilent
      | core isCore registered =>
          refine .core isCore fun contentHash => ?_
          dsimp only
          rw [registered, notHooked]
          simp
      | account isAccount notCore =>
          exact .account isAccount notCore notSilent
  | key | exposer =>
      cases linkage with
      | unlinked isZero empty silent =>
          exact .unlinked isZero empty silent
      | core isCore registered =>
          exact .core isCore registered
      | account isAccount notCore silent =>
          exact .account isAccount notCore silent

/-- An exposure is vouched for where it succeeds. -/
theorem vouched_of_exposeClaim
    {stack : Stack}
    {surroundings : BLSExposer.Surroundings}
    {claim : BLSExposer.Claim}
    {after : BLSExposer.Exposer}
    {messageId : Bytes32}
    (sound : Sound deployment stack)
    (sameKeys : surroundings.getKey = stack.registry.getKey)
    (isRegistered :
      stack.verifier.registered claim.contentHash = true)
    (exposed :
      BLSExposer.exposeClaim deployment.exposer surroundings claim
        stack.history.exposer = .ok (messageId, after)) :
    Vouched deployment stack (BLSExposer.noteOf surroundings claim) where
  logged := by
    intro linked
    cases sound.linkage with
    | unlinked isZero empty =>
        rw [empty] at isRegistered
        cases isRegistered
    | core isCore registered =>
        exact (registered claim.contentHash).mp isRegistered
    | account isAccount notCore =>
        rcases linked with isZero | isCore
        · exact absurd isZero isAccount
        · exact absurd isCore notCore
  presented := by
    have hasKey := hasKey_of_exposeClaim exposed
    rw [sameKeys] at hasKey
    obtain ⟨presented, member, isSender, isKey⟩ :=
      sound.keys.presented _ hasKey
    refine ⟨presented, member, isSender, isKey.trans ?_⟩
    simp only [BLSExposer.noteOf, sameKeys]
  checked := (BLSExposer.exposeClaim_ok exposed).2.2.1

/-- A call that succeeds leaves every exposure vouched for. -/
theorem Sound.step
    {stack next : Stack}
    {call : Call}
    (sound : Sound deployment stack)
    (taken : callStep deployment stack call = some next) :
    Sound deployment next := by
  have takes := takes_of_callStep taken
  have linkage := sound.linkage.step takes
  cases takes with
  | linked msgSender core unlinked isCore =>
      exact ⟨linkage, ⟨sound.keys.presented, sound.keys.possessed⟩,
        fun exposure member => (sound.exposures exposure member).mono
          (fun _ => .inl unlinked) (List.Subset.refl _)
          (List.Subset.refl _)⟩
  | direct msgSender contentHash verifier isAccount notCore kept =>
      exact ⟨linkage, ⟨sound.keys.presented, sound.keys.possessed⟩,
        fun exposure member => (sound.exposures exposure member).mono
          (fun linked => kept ▸ linked) (List.Subset.refl _)
          (List.Subset.refl _)⟩
  | registered call log | logged call log =>
      exact ⟨linkage, ⟨sound.keys.presented, sound.keys.possessed⟩,
        fun exposure member => (sound.exposures exposure member).mono id
          (List.subset_cons_self ..) (List.Subset.refl _)⟩
  | key call registry called =>
      exact ⟨linkage, sound.keys.key called,
        fun exposure member => (sound.exposures exposure member).mono id
          (List.Subset.refl _) (List.subset_append_right ..)⟩
  | exposer call exposerCall history isCall called =>
      refine ⟨linkage, ⟨sound.keys.presented, sound.keys.possessed⟩, ?_⟩
      have kept : ∀ exposure ∈ stack.history.exposures,
          Vouched deployment { stack with history := history } exposure :=
        fun exposure member => (sound.exposures exposure member).mono id
          (List.Subset.refl _) (List.Subset.refl _)
      rcases BLSExposer.callStep_cases called with
        ⟨surroundings, claim, messageId, after, isClaim, exposed, rfl⟩ |
          ⟨_, _, _, _, _, _, _, -, -, rfl⟩
      · obtain ⟨sameKeys, isRegistered⟩ :=
          found_of_claim isCall isClaim called
        have vouched :=
          vouched_of_exposeClaim sound sameKeys isRegistered exposed
        intro exposure member
        cases member with
        | head =>
            exact vouched.mono id (List.Subset.refl _)
              (List.Subset.refl _)
        | tail _ member =>
            exact kept exposure member
      · exact kept

/-- Whatever accounts call, in any order, and whatever the gas: the verifier
answers for the logs of the core, and a message is exposed for content that the
core has logged, under a key that its own sender has presented with a proof of
possession. -/
theorem socialBlobs_sound
    (deployment : Deployment)
    (calls : List Call) :
    Runs.AllStates (callStep deployment) (Sound deployment) .initial
      calls :=
  @Runs.allStates_of_invariant _ _ (callStep deployment) _
    (fun _ _ => True) (fun sound _ taken => sound.step taken) _ _
    sound_initial
    (@Runs.AllSteps.of_forall _ _ _ (fun _ _ => True)
      (fun _ _ => trivial) _ _)

/-!
## Accounts that have revoked their key
-/

/-- The account has registered a key and revoked it. -/
structure Revoked
    (registry : BLSRegistry)
    (owner : Address) : Prop where
  hadKey : 0 < (registry.keys owner).pubKey.length
  revoked : (registry.keys owner).revoked = true

theorem Revoked.getKey
    {registry : BLSRegistry}
    {owner : Address}
    (revoked : Revoked registry owner) :
    registry.getKey owner = [] :=
  if_pos revoked.revoked

/-- Whoever can change its record has not revoked its key. -/
theorem Revoked.update
    {registry : BLSRegistry}
    {owner msgSender : Address}
    {keyRecord : BLSKeyRecord}
    {indexToOwner : Nat → Address}
    {nextIndex : Nat}
    (revoked : Revoked registry owner)
    (changeable :
      (registry.keys msgSender).pubKey.length = 0 ∨
        (registry.keys msgSender).revoked = false) :
    Revoked {
        keys := Function.update registry.keys msgSender keyRecord
        indexToOwner := indexToOwner
        nextIndex := nextIndex } owner := by
  have other : owner ≠ msgSender := by
    rintro rfl
    rcases changeable with noKey | notRevoked
    · exact absurd revoked.hadKey (by omega)
    · rw [revoked.revoked] at notRevoked
      cases notRevoked
  constructor
  · dsimp only
    rw [Function.update_of_ne other]
    exact revoked.hadKey
  · dsimp only
    rw [Function.update_of_ne other]
    exact revoked.revoked

/-- No call of the registry brings a revoked key back. -/
theorem Revoked.callStep
    {registry next : BLSRegistry}
    {owner : Address}
    {call : BLSRegistry.Call}
    (revoked : Revoked registry owner)
    (called :
      BLSRegistry.callStep deployment.registry registry call = some next) :
    Revoked next owner := by
  cases call with
  | register presented =>
      simp only [BLSRegistry.callStep, BLSRegistry.register] at called
      split at called
      · cases called
      rename_i noKey
      split at called
      · cases called
      split at called
      · cases called
      cases called
      exact revoked.update (.inl (by omega))
  | rotate presented =>
      simp only [BLSRegistry.callStep, BLSRegistry.rotate] at called
      split at called
      · cases called
      split at called
      · cases called
      rename_i notRevoked
      split at called
      · cases called
      cases called
      exact revoked.update (.inr (Bool.eq_false_iff.mpr notRevoked))
  | revoke msgSender =>
      simp only [BLSRegistry.callStep, BLSRegistry.revoke] at called
      split at called
      · cases called
      split at called
      · cases called
      rename_i notRevoked
      cases called
      exact revoked.update (.inr (Bool.eq_false_iff.mpr notRevoked))

/-- The account has revoked its key, and all its exposures are among these. -/
structure Silent
    (owner : Address)
    (exposures : List BLSExposer.Exposure)
    (stack : Stack) : Prop where
  revoked : Revoked stack.registry owner
  exposed :
    ∀ exposure ∈ stack.history.exposures,
      exposure.claim.sender = owner → exposure ∈ exposures

theorem Silent.step
    {owner : Address}
    {exposures : List BLSExposer.Exposure}
    {stack next : Stack}
    {call : Call}
    (silent : Silent owner exposures stack)
    (taken : SocialBlobs.callStep deployment stack call = some next) :
    Silent owner exposures next := by
  cases takes_of_callStep taken with
  | linked | direct | registered | logged =>
      exact ⟨silent.revoked, silent.exposed⟩
  | key call registry called =>
      exact ⟨silent.revoked.callStep called, silent.exposed⟩
  | exposer call exposerCall history isCall called =>
      refine ⟨silent.revoked, ?_⟩
      rcases BLSExposer.callStep_cases called with
        ⟨surroundings, claim, messageId, after, isClaim, exposed, rfl⟩ |
          ⟨_, _, _, _, _, _, _, -, -, rfl⟩
      · obtain ⟨sameKeys, -⟩ := found_of_claim isCall isClaim called
        intro exposure member isOwner
        cases member with
        | head =>
            have hasKey := hasKey_of_exposeClaim exposed
            rw [sameKeys] at hasKey
            simp only [BLSExposer.noteOf] at isOwner
            rw [isOwner] at hasKey
            exact absurd silent.revoked.getKey hasKey
        | tail _ member =>
            exact silent.exposed exposure member isOwner
      · exact silent.exposed

/-- Once an account has revoked its key, it stays revoked, and no message of it
is exposed any more, under any key. -/
theorem revoked_silent
    (deployment : Deployment)
    (owner : Address)
    (stack final : Stack)
    (calls : List Call)
    (revoked : Revoked stack.registry owner)
    (executed :
      Runs.exec? (callStep deployment) stack calls = some final) :
    Revoked final.registry owner ∧
      ∀ exposure ∈ final.history.exposures,
        exposure.claim.sender = owner →
          exposure ∈ stack.history.exposures := by
  have silent : Silent owner stack.history.exposures final :=
    @Runs.exec?_invariant _ _ _ (Silent owner stack.history.exposures)
      calls (fun silent _ taken => silent.step taken) _ _
      ⟨revoked, fun _ member _ => member⟩ executed
  exact ⟨silent.revoked, silent.exposed⟩

end

/-- A machine that answers the probe and on which all points are the point at
infinity. -/
def sampleBls : BLSVerifier.Machine where
  pairing := fun _ => some (toBE 32 1)
  mapFp2ToG2 := fun input =>
    if ofBE (input.take 64) < BLS12381.prime ∧
        ofBE (input.drop 64) < BLS12381.prime then
      some (List.replicate 256 0)
    else none
  g2Add := fun _ => some (List.replicate 256 0)
  sha256 := fun bytes =>
    if 96 < bytes.length ∧ ofBE ((bytes.drop 64).take 32) ≠ 124 then
      BitVec.allOnes 256
    else BitVec.ofNat 256 (ofBE (bytes.take 32))

/-- A verifier linked to its core, on machines that know the point at
infinity. -/
def sampleDeployment : Deployment where
  exposer := {
    kzg := {
      pointEvaluation := fun _ => none
      keccak256 := fun bytes =>
        BitVec.ofNat 256 (ofBE bytes + bytes.length) }
    bls := sampleBls
    chainId := 1
    address := 0xe
    records := true }
  registry := {
    keccak256 := fun _ => 124
    bls := sampleBls
    chainId := 1
    address := 0xb }
  deployer := 0xd
  core := 0xc
  coreNotZero := by decide
  hooked := true

/-- The first message of an account, alone in its batch. -/
def sampleParams : BLSExposer.CalldataParams where
  batchData := toBE 20 0xa ++ List.replicate 6 0
  messageOffset := 0
  messageBytes := toBE 20 0xa ++ List.replicate 6 0
  signature := BLSDecompression.infinity 96
  registrationProof := []
  contentTag := 0

/-- The account registers a key, another one its batch; its message is exposed,
and it revokes its key. -/
def sampleCalls : List Call :=
  [.setCore 0xd 0xc,
    .key (.register {
      msgSender := 0xa
      blsPubKey := BLSDecompression.infinity 48
      popSignature := BLSDecompression.infinity 96
      checkOutOfGas := false }),
    .registerCalldata 0x5 7 sampleParams.batchData,
    .exposeFromCalldata {
        blockTimestamp := 8
        checkOutOfGas := false
        recordOutOfGas := false } sampleParams,
    .key (.revoke 0xa)]

/-- A revoked account keeps its one exposure while another batch is
registered. -/
theorem revoked_silent_sample :
    ∃ stack final,
      Runs.exec? (callStep sampleDeployment) .initial sampleCalls =
          some stack ∧
        stack.history.exposures.length = 1 ∧
        Runs.exec? (callStep sampleDeployment) stack
            [.registerCalldata 0x5 9 [1]] = some final ∧
        ∀ exposure ∈ final.history.exposures,
          exposure.claim.sender = 0xa →
            exposure ∈ stack.history.exposures := by
  have ran :
      (Runs.exec? (callStep sampleDeployment) .initial sampleCalls).map
          (fun stack =>
            (stack.history.exposures.length,
              (stack.registry.keys 0xa).pubKey.length,
              (stack.registry.keys 0xa).revoked,
              (Runs.exec? (callStep sampleDeployment) stack
                [.registerCalldata 0x5 9 [1]]).isSome)) =
        some (1, 48, true, true) := by
    decide +kernel
  obtain ⟨stack, executed, found⟩ := Option.map_eq_some_iff.mp ran
  obtain ⟨single, hasKey, isRevoked, later⟩ :
      stack.history.exposures.length = 1 ∧
        (stack.registry.keys 0xa).pubKey.length = 48 ∧
        (stack.registry.keys 0xa).revoked = true ∧
        (Runs.exec? (callStep sampleDeployment) stack
          [.registerCalldata 0x5 9 [1]]).isSome = true := by
    simpa using found
  obtain ⟨final, continued⟩ := Option.isSome_iff_exists.mp later
  exact ⟨stack, final, executed, single, continued,
    (revoked_silent sampleDeployment 0xa stack final _
      ⟨by omega, isRevoked⟩ continued).2⟩

end SocialBlobs

end Bam
