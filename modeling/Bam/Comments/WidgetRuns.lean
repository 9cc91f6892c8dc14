import Bam.Comments.WidgetSound

namespace Bam
namespace Comments

/-!
# Runs of the widget

What a user may rely on while promises settle in any order among the clicks: a
submission ends and sends what was typed, no draft is lost, and a widget that
was disconnected stays so.
-/

section Sends

namespace SubmitPhase

/-- The account of a run, once it has one. -/
def account? : SubmitPhase → Option Address
  | .requestAccount => none
  | .ensureSepolia account => some account
  | .getNextNonce account _ => some account
  | .signTypedData account _ _ _ => some account
  | .submitMessage account _ => some account

def attempt : SubmitPhase → Nat
  | .requestAccount => 0
  | .ensureSepolia _ => 0
  | .getNextNonce _ attempt => attempt
  | .signTypedData _ attempt _ _ => attempt
  | .submitMessage _ attempt => attempt

/-- How many messages a run has sent. -/
def sent : SubmitPhase → Nat
  | .submitMessage _ attempt => attempt + 1
  | phase => phase.attempt

end SubmitPhase

/-- Contents that decode to the draft of a run, under its parent. -/
def SubmitRun.Carries
    (postIdHash : Bytes32)
    (run : SubmitRun)
    (contents : Bytes) : Prop :=
  ∃ timestamp,
    decodeCommentContents contents =
      .ok (run.envelope postIdHash timestamp)

/-- What a run of `onSubmit` sends. -/
structure SubmitRun.Sends
    (postIdHash : Bytes32)
    (run : SubmitRun) : Prop where
  unmarked : ¬Utf16.BeginsWithMark run.draft
  count : run.sent.length = run.phase.sent
  attempt : run.phase.attempt ≤ MAX_STALE_NONCE_RETRIES
  senders : ∀ args ∈ run.sent, some args.sender = run.phase.account?
  contents : ∀ args ∈ run.sent, run.Carries postIdHash args.contents
  signing :
    ∀ account attempt nonce contents,
      run.phase = .signTypedData account attempt nonce contents →
      run.Carries postIdHash contents

/-- An envelope of a run comes back as it is. -/
theorem carries_of_encoded
    {postIdHash : Bytes32}
    {run : SubmitRun}
    {timestamp : Nat}
    {contents : Bytes}
    (unmarked : ¬Utf16.BeginsWithMark run.draft)
    (encoded :
      encodeCommentContents (run.envelope postIdHash timestamp) =
        .ok contents) :
    run.Carries postIdHash contents := by
  refine ⟨timestamp, (comment_round_trip_iff encoded).mpr ?_⟩
  intro marked
  apply unmarked
  apply Utf16.beginsWithMark_of_decode
  rw [SubmitRun.envelope] at marked
  split at marked
  · exact marked
  · exact marked

/-- Every run, in flight or acknowledged, sends its draft. -/
structure Widget.Sends
    (postIdHash : Bytes32)
    (widget : Widget)
    (inFlight : List Pending) : Prop where
  post : widget.postIdHash = postIdHash
  runs : ∀ run, .submit run ∈ inFlight → run.Sends postIdHash
  acknowledged : ∀ run ∈ widget.acknowledged, run.Sends postIdHash

section Steps

variable {postIdHash : Bytes32}
variable {widget next : Widget}
variable {run later : SubmitRun}

/-- A run that sends nothing more goes on to its next phase. -/
theorem SubmitRun.Sends.advance
    (sends : run.Sends postIdHash)
    {phase : SubmitPhase}
    (count : phase.sent = run.phase.sent)
    (attempt : phase.attempt ≤ MAX_STALE_NONCE_RETRIES)
    (account :
      run.sent = [] ∨ phase.account? = run.phase.account?)
    (signing :
      ∀ account attempt nonce contents,
        phase = .signTypedData account attempt nonce contents →
        run.Carries postIdHash contents) :
    SubmitRun.Sends postIdHash { run with phase := phase } where
  unmarked := sends.unmarked
  count := sends.count.trans count.symm
  attempt := attempt
  senders := by
    intro args member
    rcases account with empty | same
    · rw [empty] at member
      cases member
    · exact (sends.senders args member).trans same.symm
  contents := sends.contents
  signing := signing

/-- What is in flight after a step sends as before. -/
theorem Widget.Sends.keep
    {inFlight others : List Pending}
    (sends : widget.Sends postIdHash inFlight)
    (post : next.postIdHash = widget.postIdHash)
    (acknowledged : next.acknowledged = widget.acknowledged)
    (runs :
      ∀ run,
        .submit run ∈ others →
        .submit run ∈ inFlight ∨ run.Sends postIdHash) :
    next.Sends postIdHash others where
  post := post.trans sends.post
  runs := fun run member =>
    (runs run member).elim (sends.runs run) id
  acknowledged := by
    rw [acknowledged]
    exact sends.acknowledged

/-- A promise that settles leaves the others. -/
theorem Widget.Sends.leave
    {pending : Pending}
    {inFlight : List Pending}
    (sends : widget.Sends postIdHash (pending :: inFlight)) :
    widget.Sends postIdHash inFlight :=
  sends.keep rfl rfl fun _ member => .inl (List.mem_cons_of_mem _ member)

/-- A run goes on waiting. -/
theorem Widget.Sends.await
    (sends : widget.Sends postIdHash widget.inFlight)
    (run : later.Sends postIdHash) :
    (widget.await (.submit later)).Sends postIdHash
      (widget.await (.submit later)).inFlight := by
  refine sends.keep rfl rfl fun other member => ?_
  rcases List.mem_append.mp member with member | member
  · exact .inl member
  · cases List.mem_singleton.mp member
    exact .inr run

theorem Widget.Sends.render
    (sends : widget.Sends postIdHash widget.inFlight) :
    widget.render.Sends postIdHash widget.render.inFlight := by
  rw [render_inFlight]
  refine sends.keep ?_ ?_ fun run member => .inl member
  · rw [Widget.render]
    split <;> rfl
  · rw [Widget.render]
    split <;> rfl

/-- Sending does not look at the state. -/
theorem Widget.Sends.state
    (sends : widget.Sends postIdHash widget.inFlight)
    (state : MountState) :
    Widget.Sends postIdHash { widget with state := state }
      widget.inFlight :=
  sends.keep rfl rfl fun _ member => .inl member

theorem Widget.Sends.fail
    (sends : widget.Sends postIdHash widget.inFlight)
    (error : String) :
    (widget.fail error).Sends postIdHash (widget.fail error).inFlight :=
  Widget.Sends.render (sends.state _)

theorem Widget.Sends.failSubmit
    (sends : widget.Sends postIdHash widget.inFlight)
    (myEpoch : Nat)
    (error : String) :
    (widget.failSubmit myEpoch error).Sends postIdHash
      (widget.failSubmit myEpoch error).inFlight := by
  rw [Widget.failSubmit]
  split
  · exact sends
  · exact Widget.Sends.fail
      (sends.state { widget.state with submitting := false }) error

theorem Widget.Sends.refresh
    (sends : widget.Sends postIdHash widget.inFlight) :
    widget.refresh.Sends postIdHash widget.refresh.inFlight := by
  rw [Widget.refresh]
  split
  · exact sends
  · refine sends.keep rfl rfl fun run member => .inl ?_
    simpa [Widget.await] using member

theorem Widget.Sends.settleSubmit
    (sends : widget.Sends postIdHash (.submit run :: widget.inFlight))
    {answer : Settled}
    (settled : widget.settleSubmit run answer = some next) :
    next.Sends postIdHash next.inFlight := by
  have before := sends.runs run List.mem_cons_self
  have others := sends.leave
  rw [Widget.settleSubmit.eq_def] at settled
  split at settled
  · cases settled
    exact others.failSubmit _ _
  · rename_i account isPhase
    have none : run.sent = [] := by
      rw [← List.length_eq_zero_iff, before.count, isPhase]
      rfl
    split at settled
    · cases settled
      exact others
    · cases settled
      exact Widget.Sends.await (others.state _)
        (before.advance (by rw [isPhase]; rfl) (Nat.zero_le _)
          (.inl none) (by simp))
  · rename_i account isPhase
    split at settled
    · cases settled
      exact others
    · cases settled
      exact others.await
        (before.advance (by rw [isPhase]; rfl) (Nat.zero_le _)
          (.inr (by rw [isPhase]; rfl)) (by simp))
  · rename_i account attempt nonce timestamp isPhase
    have bound := before.attempt
    rw [isPhase] at bound
    split at settled
    · cases settled
      exact others.failSubmit _ _
    · rename_i contents encoded
      cases settled
      rw [others.post] at encoded
      refine others.await (before.advance (by rw [isPhase]; rfl) bound
        (.inr (by rw [isPhase]; rfl)) ?_)
      intro _ _ _ _ isSigning
      cases isSigning
      exact carries_of_encoded before.unmarked encoded
  · rename_i account attempt nonce contents signature isPhase
    have bound := before.attempt
    have counted := before.count
    rw [isPhase] at bound counted
    cases settled
    refine others.await ⟨before.unmarked, ?_, bound, ?_, ?_, by simp⟩
    · simp only [List.length_append, List.length_singleton, counted]
      rfl
    · intro args member
      rcases List.mem_append.mp member with member | member
      · rw [before.senders args member, isPhase]
        rfl
      · cases List.mem_singleton.mp member
        rfl
    · intro args member
      rcases List.mem_append.mp member with member | member
      · exact before.contents args member
      · cases List.mem_singleton.mp member
        exact before.signing account attempt nonce contents isPhase
  · dsimp only at settled
    have acknowledged :
        Widget.Sends postIdHash
          { widget with acknowledged := widget.acknowledged ++ [run] }
          widget.inFlight := by
      refine ⟨others.post, others.runs, fun other member => ?_⟩
      rcases List.mem_append.mp member with member | member
      · exact others.acknowledged other member
      · cases List.mem_singleton.mp member
        exact before
    split at settled
    · cases settled
      exact acknowledged
    · cases settled
      exact Widget.Sends.refresh
        (Widget.Sends.render (acknowledged.state _))
  · rename_i account attempt reason isPhase
    split at settled
    · cases settled
      exact others.failSubmit _ _
    · rename_i retried
      have bound := before.attempt
      rw [isPhase] at bound
      have last : attempt ≠ MAX_STALE_NONCE_RETRIES :=
        fun last => retried (.inr last)
      cases settled
      refine others.await (before.advance (by rw [isPhase]; rfl) ?_
        (.inr (by rw [isPhase]; rfl)) (by simp))
      exact Nat.succ_le_of_lt (Nat.lt_of_le_of_ne bound last)
  · cases settled

theorem Widget.Sends.settle
    {pending : Pending}
    (sends : widget.Sends postIdHash (pending :: widget.inFlight))
    {answer : Settled}
    (settled : widget.settle pending answer = some next) :
    next.Sends postIdHash next.inFlight := by
  have others := sends.leave
  rw [Widget.settle.eq_def] at settled
  split at settled
  · split at settled
    · cases settled
      exact others
    · cases settled
      exact Widget.Sends.render (others.state _)
  · split at settled
    · cases settled
      exact others
    · cases settled
      exact Widget.Sends.fail
        (others.state { widget.state with loading := false }) _
  · split at settled
    · cases settled
      exact others
    · split at settled
      · cases settled
        exact Widget.Sends.render (others.state _)
      · cases settled
        exact others
  · cases settled
    refine others.keep rfl rfl fun run member => .inl ?_
    simpa [Widget.await] using member
  · cases settled
    exact others.fail _
  · cases settled
    apply Widget.Sends.render
    rw [Widget.wireAccountsChanged]
    split
    · exact others.keep rfl rfl fun run member => .inl member
    · exact others.keep rfl rfl fun run member => .inl member
  · cases settled
    exact others.fail _
  · exact sends.settleSubmit settled
  · cases settled

theorem Widget.Sends.onSubmit
    (sends : widget.Sends postIdHash widget.inFlight)
    (provider : Bool) :
    (widget.onSubmit provider).Sends postIdHash
      (widget.onSubmit provider).inFlight := by
  rw [Widget.onSubmit.eq_def]
  split
  · exact sends
  · rename_i composing isComposing
    have submitting := Widget.Sends.render
      (sends.state
        { widget.state with submitting := true, error := none })
    dsimp only
    split
    · exact sends
    · split
      · exact sends
      · split
        · exact sends.fail _
        · have fresh
              {phase : SubmitPhase}
              (early : phase.sent = 0)
              (first : phase.attempt = 0)
              (unsigned :
                ∀ account attempt nonce contents,
                  phase ≠ .signTypedData account attempt nonce contents) :
              SubmitRun.Sends postIdHash
                { myEpoch := widget.opEpoch
                  draft := Utf16.trim composing.draft
                  parent := composing.parent
                  phase := phase
                  sent := [] } :=
            { unmarked := Utf16.not_beginsWithMark_trim _
              count := early.symm
              attempt := first ▸ Nat.zero_le _
              senders := by simp
              contents := by simp
              signing := fun _ _ _ _ isSigning =>
                absurd isSigning (unsigned _ _ _ _) }
          split
          · split
            · exact submitting.await (fresh rfl rfl (by simp))
            · exact submitting.await (fresh rfl rfl (by simp))
          · exact submitting.failSubmit _ _

theorem Widget.Sends.step
    (sends : widget.Sends postIdHash widget.inFlight)
    {event : WidgetEvent}
    (stepped : widgetStep widget event = some next) :
    next.Sends postIdHash next.inFlight := by
  cases steps_of_widgetStep stepped with
  | connect provider =>
      have cleared :
          Widget.Sends postIdHash
            { widget with
              manuallyDisconnected := false
              state := { widget.state with error := none } }
            widget.inFlight :=
        sends.keep rfl rfl fun run member => .inl member
      rw [Widget.onConnect]
      split
      · refine cleared.keep rfl rfl fun run member => .inl ?_
        simpa [Widget.await] using member
      · exact Widget.Sends.fail cleared _
  | disconnect =>
      apply Widget.Sends.render
      exact sends.keep rfl rfl fun run member => .inl member
  | startCompose parent =>
      exact Widget.Sends.render (sends.state _)
  | cancelCompose =>
      exact Widget.Sends.render (sends.state _)
  | draftChange draft enabled =>
      exact sends.state _
  | submit provider enabled =>
      exact sends.onSubmit provider
  | accountsChanged account =>
      rw [Widget.onAccountsChanged]
      split
      · exact sends
      · exact Widget.Sends.render (sends.state _)
  | pollTimer =>
      exact sends.refresh
  | settle index answer isPending settled =>
      obtain ⟨bound, isAt⟩ := List.getElem?_eq_some_iff.mp isPending
      have settling :
          Widget.Sends postIdHash
            { widget with inFlight := widget.inFlight.eraseIdx index }
            (_ :: widget.inFlight.eraseIdx index) :=
        sends.keep rfl rfl fun run member =>
          .inl ((isAt ▸ List.getElem_cons_eraseIdx_perm bound).mem_iff.mp
            member)
      exact settling.settle settled
  | destroy =>
      exact sends.keep rfl rfl fun run member => .inl member

end Steps

end Sends

/-- What holds of a widget at every moment: `submitting` is set exactly while a
run of `onSubmit` of the current epoch is under way, there is never a second
one, and a run sends its draft at most nine times, under one account. -/
structure Widget.Consistent
    (postIdHash : Bytes32)
    (widget : Widget) : Prop where
  submitting :
    widget.state.submitting = true ↔
      ∃ run,
        .submit run ∈ widget.inFlight ∧ run.myEpoch = widget.opEpoch
  alone :
    widget.inFlight.countP (Pending.ofEpoch widget.opEpoch) ≤ 1
  sent :
    ∀ run,
      .submit run ∈ widget.inFlight ∨ run ∈ widget.acknowledged →
      run.sent.length ≤ MAX_STALE_NONCE_RETRIES + 1 ∧
        (∀ args ∈ run.sent, some args.sender = run.phase.account?) ∧
        ∀ args ∈ run.sent, run.Carries postIdHash args.contents

theorem sound_mountInstance
    (postIdHash : Bytes32)
    (provider : Bool) :
    (mountInstance postIdHash provider).Sound
      (mountInstance postIdHash provider).inFlight := by
  refine ⟨fun _ => ⟨rfl, rfl, rfl⟩, ?_, ?_⟩
  · intro run member
    cases provider <;> simp [mountInstance] at member
  · cases provider <;> rfl

theorem sends_mountInstance
    (postIdHash : Bytes32)
    (provider : Bool) :
    (mountInstance postIdHash provider).Sends postIdHash
      (mountInstance postIdHash provider).inFlight := by
  refine ⟨rfl, ?_, ?_⟩
  · intro run member
    cases provider <;> simp [mountInstance] at member
  · intro run member
    cases member

theorem SubmitRun.Sends.length
    {postIdHash : Bytes32}
    {run : SubmitRun}
    (sends : run.Sends postIdHash) :
    run.sent.length ≤ MAX_STALE_NONCE_RETRIES + 1 := by
  have bound := sends.attempt
  rw [sends.count]
  cases phase : run.phase with
  | submitMessage account attempt =>
      rw [phase] at bound
      exact Nat.succ_le_succ bound
  | requestAccount =>
      exact Nat.zero_le _
  | ensureSepolia account =>
      exact Nat.zero_le _
  | getNextNonce account attempt =>
      rw [phase] at bound
      exact Nat.le_succ_of_le bound
  | signTypedData account attempt nonce contents =>
      rw [phase] at bound
      exact Nat.le_succ_of_le bound

theorem consistent_of_sound
    {postIdHash : Bytes32}
    {widget : Widget}
    (sound : widget.Sound widget.inFlight)
    (sends : widget.Sends postIdHash widget.inFlight) :
    widget.Consistent postIdHash where
  submitting := by
    have counted := sound.submitting
    constructor
    · intro busy
      rw [busy] at counted
      obtain ⟨pending, member, current⟩ :=
        List.countP_pos_iff.mp (by rw [counted]; decide)
      cases pending with
      | submit run =>
          exact ⟨run, member, of_decide_eq_true current⟩
      | listForPost =>
          cases current
      | readExistingAccount =>
          cases current
      | requestAccount =>
          cases current
      | ensureSepolia account =>
          cases current
    · rintro ⟨run, member, current⟩
      by_contra idle
      rw [Bool.not_eq_true] at idle
      rw [idle] at counted
      exact stale_of_none counted member current
  alone := sound.submitting ▸ Bool.toNat_le _
  sent := by
    intro run of
    have sent :=
      of.elim (sends.runs run) (sends.acknowledged run)
    exact ⟨sent.length, sent.senders, sent.contents⟩

/-- A run of `onSubmit` of the current epoch whose message the step saw
accepted, and whose draft is all that was in the composer. -/
def Widget.Published
    (widget next : Widget)
    (draft : List UInt16) : Prop :=
  ∃ run,
    next.acknowledged = widget.acknowledged ++ [run] ∧
      run.myEpoch = widget.opEpoch ∧
      (Utf16.trim draft = run.draft ∨ draft = [])

/-- What a step does to a draft: nothing unless the user types, and it is gone
only with the user's own doing, a wallet that disconnects, or its own
publication. -/
def Widget.KeepsDraft
    (widget : Widget)
    (event : WidgetEvent) : Prop :=
  ∀ next composing,
    widgetStep widget event = some next →
    widget.state.composing = some composing →
    (∃ later,
      next.state.composing = some later ∧
        (later.draft = composing.draft ∨
          event = .draftChange later.draft)) ∨
      next.state.composing = none ∧
        (event = .cancelCompose ∨
          event = .disconnect ∨
          event = .accountsChanged none ∨
          widget.Published next composing.draft)

section Drafts

variable {widget next : Widget}

@[simp] theorem failSubmit_composing
    (widget : Widget)
    (myEpoch : Nat)
    (error : String) :
    (widget.failSubmit myEpoch error).state.composing =
      widget.state.composing := by
  rw [Widget.failSubmit]
  split
  · rfl
  · rw [fail_state]

@[simp] theorem failSubmit_account
    (widget : Widget)
    (myEpoch : Nat)
    (error : String) :
    (widget.failSubmit myEpoch error).state.account =
      widget.state.account := by
  rw [Widget.failSubmit]
  split
  · rfl
  · rw [fail_state]

@[simp] theorem refresh_state (widget : Widget) :
    widget.refresh.state = widget.state := by
  rw [Widget.refresh]
  split <;> rfl

@[simp] theorem refresh_acknowledged (widget : Widget) :
    widget.refresh.acknowledged = widget.acknowledged := by
  rw [Widget.refresh]
  split <;> rfl

@[simp] theorem render_acknowledged (widget : Widget) :
    widget.render.acknowledged = widget.acknowledged := by
  rw [Widget.render]
  split <;> rfl

/-- A run of `onSubmit` touches the composer only when it is published, and the
account only when it asked for one. -/
theorem settleSubmit_state
    {run : SubmitRun}
    {answer : Settled}
    (settled : widget.settleSubmit run answer = some next) :
    (next.state.composing = widget.state.composing ∨
      next.state.composing = none ∧
        next.acknowledged = widget.acknowledged ++ [run] ∧
        run.myEpoch = widget.opEpoch) ∧
      (next.state.account = widget.state.account ∨
        run.phase = .requestAccount) := by
  rw [Widget.settleSubmit.eq_def] at settled
  split at settled
  · cases settled
    exact ⟨.inl (by simp), .inl (by simp)⟩
  · rename_i account isPhase
    split at settled
    · cases settled
      exact ⟨.inl rfl, .inl rfl⟩
    · cases settled
      exact ⟨.inl rfl, .inr isPhase⟩
  · split at settled
    · cases settled
      exact ⟨.inl rfl, .inl rfl⟩
    · cases settled
      exact ⟨.inl rfl, .inl rfl⟩
  · split at settled
    · cases settled
      exact ⟨.inl (by simp), .inl (by simp)⟩
    · cases settled
      exact ⟨.inl rfl, .inl rfl⟩
  · cases settled
    exact ⟨.inl rfl, .inl rfl⟩
  · dsimp only at settled
    split at settled
    · cases settled
      exact ⟨.inl rfl, .inl rfl⟩
    · rename_i current
      cases settled
      exact ⟨.inr ⟨by simp, by simp, not_not.mp current⟩,
        .inl (by simp)⟩
  · split at settled
    · cases settled
      exact ⟨.inl (by simp), .inl (by simp)⟩
    · cases settled
      exact ⟨.inl rfl, .inl rfl⟩
  · cases settled

/-- Only a run of `onSubmit` that settles touches the composer. -/
theorem settle_composing
    {pending : Pending}
    {answer : Settled}
    (settled : widget.settle pending answer = some next) :
    next.state.composing = widget.state.composing ∨
      ∃ run,
        pending = .submit run ∧
          next.state.composing = none ∧
          next.acknowledged = widget.acknowledged ++ [run] ∧
          run.myEpoch = widget.opEpoch := by
  rw [Widget.settle.eq_def] at settled
  split at settled
  · split at settled
    · cases settled
      exact .inl rfl
    · cases settled
      exact .inl (by simp)
  · split at settled
    · cases settled
      exact .inl rfl
    · cases settled
      exact .inl (by simp)
  · split at settled
    · cases settled
      exact .inl rfl
    · split at settled
      · cases settled
        exact .inl (by simp)
      · cases settled
        exact .inl rfl
  · cases settled
    exact .inl rfl
  · cases settled
    exact .inl (by simp)
  · cases settled
    rw [render_state, Widget.wireAccountsChanged]
    split
    · exact .inl rfl
    · exact .inl rfl
  · cases settled
    exact .inl (by simp)
  · rcases (settleSubmit_state settled).1 with same | ended
    · exact .inl same
    · exact .inr ⟨_, rfl, ended⟩
  · cases settled

theorem onSubmit_composing
    (provider : Bool) :
    (widget.onSubmit provider).state.composing =
      widget.state.composing := by
  rw [Widget.onSubmit.eq_def]
  split
  · rfl
  · dsimp only
    split
    · rfl
    · split
      · rfl
      · split
        · simp
        · split
          · split
            · simp [Widget.await]
            · simp [Widget.await]
          · simp

/-- Every step keeps the draft. -/
theorem Widget.Sound.keepsDraft
    (sound : widget.Sound widget.inFlight)
    (event : WidgetEvent) :
    widget.KeepsDraft event := by
  intro next composing stepped isComposing
  have unchanged
      (same : next.state.composing = widget.state.composing) :
      ∃ later,
        next.state.composing = some later ∧
          (later.draft = composing.draft ∨
            event = .draftChange later.draft) :=
    ⟨composing, same.trans isComposing, .inl rfl⟩
  cases steps_of_widgetStep stepped with
  | connect provider =>
      apply Or.inl (unchanged _)
      rw [Widget.onConnect]
      split
      · rfl
      · simp
  | disconnect =>
      exact .inr ⟨by simp [Widget.onDisconnect], .inr (.inl rfl)⟩
  | startCompose parent =>
      refine .inl ⟨{ parent := parent, draft := composing.draft },
        ?_, .inl rfl⟩
      simp [Widget.onStartCompose, isComposing]
  | cancelCompose =>
      exact .inr ⟨by simp [Widget.onCancelCompose], .inl rfl⟩
  | draftChange draft =>
      refine .inl ⟨{ composing with draft := draft }, ?_, .inr rfl⟩
      simp [Widget.onDraftChange, isComposing]
  | submit provider =>
      exact .inl (unchanged (onSubmit_composing provider))
  | accountsChanged account =>
      rw [Widget.onAccountsChanged] at unchanged ⊢
      split
      · rename_i vetoed
        rw [if_pos vetoed] at unchanged
        exact .inl (unchanged rfl)
      · rename_i taken
        rw [if_neg taken] at unchanged
        cases account with
        | none =>
            exact .inr ⟨by simp, .inr (.inr (.inl rfl))⟩
        | some account =>
            exact .inl (unchanged (by simp))
  | pollTimer =>
      exact .inl (unchanged (by simp))
  | settle index answer isPending settled =>
      rcases settle_composing settled with same |
        ⟨run, rfl, ended, acknowledged, current⟩
      · exact .inl (unchanged same)
      · refine .inr ⟨ended, .inr (.inr (.inr
          ⟨run, acknowledged, current, ?_⟩))⟩
        exact (sound.runs run (List.mem_of_getElem? isPending)).draft
          current composing isComposing
  | destroy =>
      exact .inl (unchanged rfl)

end Drafts

/-- No draft is ever lost: not to a poll, a failed submission, a switched
account, or the late end of a submission the user has disconnected from. -/
theorem drafts_kept
    (postIdHash : Bytes32)
    (provider : Bool)
    (events : List WidgetEvent) :
    Runs.AllSteps widgetStep
      (fun widget event => widget.KeepsDraft event)
      (mountInstance postIdHash provider) events :=
  @Runs.allSteps_of_invariant _ _ widgetStep
    (fun widget => widget.Sound widget.inFlight)
    (fun _ _ => True) _
    (fun sound _ stepped => sound.step stepped)
    (fun sound _ => sound.keepsDraft _)
    (mountInstance postIdHash provider) events
    (sound_mountInstance postIdHash provider)
    (@Runs.AllSteps.of_forall _ _ _ (fun _ _ => True)
      (fun _ _ => trivial) _ _)

/-- Until the next click on Connect a disconnected widget gets an account back
only from an earlier Connect, whose wallet answers late.  The click itself
lifts the veto, before its own wallet has answered. -/
def Widget.StaysOut
    (widget : Widget)
    (event : WidgetEvent) : Prop :=
  ∀ next account,
    widgetStep widget event = some next →
    widget.manuallyDisconnected = true →
    widget.state.account = none →
    next.state.account = some account →
    ∃ index,
      event = .settle index .onSepolia ∧
        widget.inFlight[index]? = some (.ensureSepolia account)

section Accounts

variable {widget next : Widget}

theorem onSubmit_account
    (provider : Bool) :
    (widget.onSubmit provider).state.account = widget.state.account := by
  rw [Widget.onSubmit.eq_def]
  split
  · rfl
  · dsimp only
    split
    · rfl
    · split
      · rfl
      · split
        · simp
        · split
          · split
            · simp [Widget.await]
            · simp [Widget.await]
          · simp

/-- A promise that brings an account to a widget that has been disconnected. -/
theorem settle_account
    {pending : Pending}
    (asked :
      ∀ run, pending = .submit run → run.phase ≠ .requestAccount)
    {answer : Settled}
    {account : Address}
    (vetoed : widget.manuallyDisconnected = true)
    (out : widget.state.account = none)
    (settled : widget.settle pending answer = some next)
    (back : next.state.account = some account) :
    pending = .ensureSepolia account ∧ answer = .onSepolia := by
  have same
      (unchanged : next.state.account = widget.state.account) :
      pending = .ensureSepolia account ∧ answer = .onSepolia := by
    rw [unchanged, out] at back
    cases back
  rw [Widget.settle.eq_def] at settled
  split at settled
  · split at settled
    · cases settled
      exact same rfl
    · cases settled
      exact same (by simp)
  · split at settled
    · cases settled
      exact same rfl
    · cases settled
      exact same (by simp)
  · rw [if_pos vetoed] at settled
    cases settled
    exact same rfl
  · cases settled
    exact same rfl
  · cases settled
    exact same (by simp)
  · cases settled
    rw [render_state, Widget.wireAccountsChanged] at back
    split at back
    · cases back
      exact ⟨rfl, rfl⟩
    · cases back
      exact ⟨rfl, rfl⟩
  · cases settled
    exact same (by simp)
  · rcases (settleSubmit_state settled).2 with unchanged | isAsked
    · exact same unchanged
    · exact absurd isAsked (asked _ rfl)
  · cases settled

theorem Widget.Sound.staysOut
    (sound : widget.Sound widget.inFlight)
    (event : WidgetEvent) :
    widget.StaysOut event := by
  intro next account stepped vetoed out back
  have same
      (unchanged : next.state.account = widget.state.account) :
      ∃ index,
        event = .settle index .onSepolia ∧
          widget.inFlight[index]? = some (.ensureSepolia account) := by
    rw [unchanged, out] at back
    cases back
  cases steps_of_widgetStep stepped with
  | connect provider =>
      apply same
      rw [Widget.onConnect]
      split
      · rfl
      · simp
  | disconnect =>
      rw [Widget.onDisconnect, render_state] at back
      cases back
  | startCompose parent =>
      exact same (by simp [Widget.onStartCompose])
  | cancelCompose =>
      exact same (by simp [Widget.onCancelCompose])
  | draftChange draft =>
      exact same rfl
  | submit provider =>
      exact same (onSubmit_account provider)
  | accountsChanged other =>
      cases other with
      | none =>
          simp [Widget.onAccountsChanged] at back
      | some other =>
          simp [Widget.onAccountsChanged, vetoed, out] at back
  | pollTimer =>
      exact same (by simp)
  | settle index answer isPending settled =>
      obtain ⟨rfl, rfl⟩ :=
        @settle_account
          { widget with inFlight := widget.inFlight.eraseIdx index }
          next _
          (fun run isRun =>
            (sound.runs run
              (isRun ▸ List.mem_of_getElem? isPending)).phase)
          answer account vetoed out settled back
      exact ⟨index, rfl, isPending⟩
  | destroy =>
      exact same rfl

end Accounts

/-- Until the next click on Connect a disconnected widget stays out, through
events of the wallet, the silent restore and the ends of old submissions. -/
theorem disconnected_stays_out
    (postIdHash : Bytes32)
    (provider : Bool)
    (events : List WidgetEvent) :
    Runs.AllSteps widgetStep
      (fun widget event => widget.StaysOut event)
      (mountInstance postIdHash provider) events :=
  @Runs.allSteps_of_invariant _ _ widgetStep
    (fun widget => widget.Sound widget.inFlight)
    (fun _ _ => True) _
    (fun sound _ stepped => sound.step stepped)
    (fun sound _ => sound.staysOut _)
    (mountInstance postIdHash provider) events
    (sound_mountInstance postIdHash provider)
    (@Runs.AllSteps.of_forall _ _ _ (fun _ _ => True)
      (fun _ _ => trivial) _ _)

end Comments
end Bam
