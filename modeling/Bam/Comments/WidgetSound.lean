import Bam.Comments.Widget
import Mathlib.Data.List.Perm.Basic

namespace Bam
namespace Comments

/-!
# The invariant of the widget

Promises settle in any order among the clicks.  What carries every run is that
the runs of `onSubmit` of the current epoch are counted by `submitting`, and
that nothing but the submitted draft or an empty one is in the composer while
there is such a run.
-/

/-- What an event does, where what was rendered offers it. -/
inductive WidgetSteps (widget : Widget) : WidgetEvent → Widget → Prop where
  | connect (provider : Bool) :
      WidgetSteps widget (.connect provider) (widget.onConnect provider)
  | disconnect : WidgetSteps widget .disconnect widget.onDisconnect
  | startCompose (parent : Option Bytes32) :
      WidgetSteps widget (.startCompose parent)
        (widget.onStartCompose parent)
  | cancelCompose : WidgetSteps widget .cancelCompose widget.onCancelCompose
  | draftChange
      (draft : List UInt16)
      (enabled : widget.composerEnabled = true) :
      WidgetSteps widget (.draftChange draft) (widget.onDraftChange draft)
  | submit
      (provider : Bool)
      (enabled : widget.submitEnabled = true) :
      WidgetSteps widget (.submit provider) (widget.onSubmit provider)
  | accountsChanged (account : Option Address) :
      WidgetSteps widget (.accountsChanged account)
        (widget.onAccountsChanged account)
  | pollTimer : WidgetSteps widget .pollTimer widget.refresh
  | settle
      (index : Nat)
      (answer : Settled)
      {pending : Pending}
      {next : Widget}
      (isPending : widget.inFlight[index]? = some pending)
      (settled :
        Widget.settle
            { widget with inFlight := widget.inFlight.eraseIdx index }
            pending answer =
          some next) :
      WidgetSteps widget (.settle index answer) next
  | destroy :
      WidgetSteps widget .destroy
        { widget with destroyed := true, subscribed := false }

theorem steps_of_widgetStep
    {widget next : Widget}
    {event : WidgetEvent}
    (stepped : widgetStep widget event = some next) :
    WidgetSteps widget event next := by
  rw [widgetStep.eq_def] at stepped
  split at stepped
  · split at stepped
    · cases stepped
    · cases stepped
      exact .connect _
  · split at stepped
    · cases stepped
    · cases stepped
      exact .disconnect
  · split at stepped
    · cases stepped
    · split at stepped
      · cases stepped
      · cases stepped
        exact .startCompose _
  · split at stepped
    · cases stepped
      exact .cancelCompose
    · cases stepped
  · split at stepped
    · rename_i enabled
      cases stepped
      exact .draftChange _ enabled
    · cases stepped
  · split at stepped
    · rename_i enabled
      cases stepped
      exact .submit _ enabled
    · cases stepped
  · split at stepped
    · cases stepped
      exact .accountsChanged _
    · cases stepped
  · split at stepped
    · cases stepped
    · cases stepped
      exact .pollTimer
  · split at stepped
    · cases stepped
    · rename_i isPending
      exact .settle _ _ isPending stepped
  · split at stepped
    · cases stepped
    · cases stepped
      exact .destroy

/-- A run of `onSubmit` that was started in an epoch. -/
def Pending.ofEpoch (epoch : Nat) : Pending → Bool
  | .submit run => run.myEpoch = epoch
  | _ => false

/-- What was rendered last agrees with the state, the draft apart. -/
def Widget.Rendered (widget : Widget) : Prop :=
  widget.destroyed = false →
    widget.view.account = widget.state.account ∧
      widget.view.submitting = widget.state.submitting ∧
      widget.view.composing.isSome = widget.state.composing.isSome

/-- A run of `onSubmit` in flight. -/
structure SubmitRun.Sound
    (widget : Widget)
    (run : SubmitRun) : Prop where
  phase : run.phase ≠ .requestAccount
  epoch : run.myEpoch ≤ widget.opEpoch
  draft :
    run.myEpoch = widget.opEpoch →
    ∀ composing,
      widget.state.composing = some composing →
      Utf16.trim composing.draft = run.draft ∨ composing.draft = []

/-- The invariant, over the promises in flight. -/
structure Widget.Sound
    (widget : Widget)
    (inFlight : List Pending) : Prop where
  rendered : widget.Rendered
  runs : ∀ run, .submit run ∈ inFlight → run.Sound widget
  submitting :
    inFlight.countP (Pending.ofEpoch widget.opEpoch) =
      widget.state.submitting.toNat

theorem rendered_render (widget : Widget) :
    widget.render.Rendered := by
  intro alive
  rw [Widget.render] at alive ⊢
  split
  · rename_i destroyed
    rw [if_pos destroyed, destroyed] at alive
    cases alive
  · exact ⟨rfl, rfl, rfl⟩

@[simp] theorem render_state (widget : Widget) :
    widget.render.state = widget.state := by
  rw [Widget.render]
  split <;> rfl

@[simp] theorem render_opEpoch (widget : Widget) :
    widget.render.opEpoch = widget.opEpoch := by
  rw [Widget.render]
  split <;> rfl

@[simp] theorem render_inFlight (widget : Widget) :
    widget.render.inFlight = widget.inFlight := by
  rw [Widget.render]
  split <;> rfl

@[simp] theorem render_destroyed (widget : Widget) :
    widget.render.destroyed = widget.destroyed := by
  rw [Widget.render]
  split <;> rfl

section Sound

variable {widget next : Widget}
variable {inFlight others : List Pending}
variable {pending : Pending}
variable {run : SubmitRun}

theorem Widget.Sound.perm
    (sound : widget.Sound inFlight)
    (same : others.Perm inFlight) :
    widget.Sound others where
  rendered := sound.rendered
  runs := fun run member => sound.runs run (same.mem_iff.mp member)
  submitting := (same.countP_eq _).trans sound.submitting

/-- A promise that is no current run of `onSubmit` leaves. -/
theorem Widget.Sound.leave
    (sound : widget.Sound (pending :: inFlight))
    (stale : pending.ofEpoch widget.opEpoch = false) :
    widget.Sound inFlight where
  rendered := sound.rendered
  runs := fun run member =>
    sound.runs run (List.mem_cons_of_mem _ member)
  submitting := by
    have counted := sound.submitting
    rwa [List.countP_cons_of_neg (by simp [stale])] at counted

/-- A promise that is no run of `onSubmit` enters. -/
theorem Widget.Sound.enter
    (sound : widget.Sound inFlight)
    (other : ∀ run, pending ≠ .submit run) :
    widget.Sound (inFlight ++ [pending]) where
  rendered := sound.rendered
  runs := by
    intro run member
    rcases List.mem_append.mp member with member | member
    · exact sound.runs run member
    · exact absurd (List.mem_singleton.mp member).symm (other run)
  submitting := by
    have stale : pending.ofEpoch widget.opEpoch = false := by
      cases pending with
      | submit run =>
          exact absurd rfl (other run)
      | listForPost =>
          rfl
      | readExistingAccount =>
          rfl
      | requestAccount =>
          rfl
      | ensureSepolia account =>
          rfl
    rw [List.countP_append, sound.submitting]
    simp [stale]

/-- A change of the state that starts and ends no submission, and brings no
draft into the composer. -/
theorem Widget.Sound.update
    (sound : widget.Sound inFlight)
    (rendered : next.Rendered)
    (epoch : next.opEpoch = widget.opEpoch)
    (submitting : next.state.submitting = widget.state.submitting)
    (drafts :
      ∀ composing,
        next.state.composing = some composing →
        composing.draft = [] ∨
          ∃ before,
            widget.state.composing = some before ∧
              before.draft = composing.draft) :
    next.Sound inFlight where
  rendered := rendered
  runs := by
    intro run member
    have before := sound.runs run member
    refine ⟨before.phase, epoch ▸ before.epoch, ?_⟩
    intro current composing isComposing
    rcases drafts composing isComposing with empty | ⟨old, isOld, same⟩
    · exact .inr empty
    · rw [← same]
      exact before.draft (current.trans epoch) old isOld
  submitting := by
    rw [epoch, submitting]
    exact sound.submitting

/-- A state that is shown, with the composer as it was. -/
theorem Widget.Sound.shown
    (sound : widget.Sound inFlight)
    (epoch : next.opEpoch = widget.opEpoch)
    (submitting : next.state.submitting = widget.state.submitting)
    (composing : next.state.composing = widget.state.composing) :
    next.render.Sound inFlight := by
  refine sound.update (rendered_render next) ?_ ?_ ?_
  · rw [render_opEpoch, epoch]
  · rw [render_state, submitting]
  · intro later isComposing
    rw [render_state, composing] at isComposing
    exact .inr ⟨later, isComposing, rfl⟩

/-- A run goes on: it keeps its epoch and its draft. -/
theorem Widget.Sound.continue
    (sound : widget.Sound (.submit run :: inFlight))
    {later : SubmitRun}
    (epoch : later.myEpoch = run.myEpoch)
    (draft : later.draft = run.draft)
    (phase : later.phase ≠ .requestAccount) :
    widget.Sound (inFlight ++ [.submit later]) := by
  suffices front : widget.Sound (.submit later :: inFlight) from
    front.perm (List.perm_append_singleton _ _)
  constructor
  · exact sound.rendered
  · intro other member
    rcases List.mem_cons.mp member with isLater | member
    · cases isLater
      have before := sound.runs run List.mem_cons_self
      exact ⟨phase, epoch ▸ before.epoch,
        fun current => draft ▸ before.draft (epoch ▸ current)⟩
    · exact sound.runs other (List.mem_cons_of_mem _ member)
  · rw [← sound.submitting, List.countP_cons, List.countP_cons,
      Pending.ofEpoch, Pending.ofEpoch, epoch]

theorem stale_of_none
    {epoch : Nat}
    (none : inFlight.countP (Pending.ofEpoch epoch) = 0)
    (member : .submit run ∈ inFlight) :
    run.myEpoch ≠ epoch := by
  have stale := List.countP_eq_zero.mp none _ member
  simpa [Pending.ofEpoch] using stale

/-- The current run ends, and `submitting` with it. -/
theorem Widget.Sound.finish
    (sound : widget.Sound (.submit run :: inFlight))
    (current : run.myEpoch = widget.opEpoch)
    (rendered : next.Rendered)
    (epoch : next.opEpoch = widget.opEpoch)
    (idle : next.state.submitting = false) :
    next.Sound inFlight := by
  have none :
      inFlight.countP (Pending.ofEpoch widget.opEpoch) = 0 := by
    have counted := sound.submitting
    rw [List.countP_cons_of_pos (by simp [Pending.ofEpoch, current])]
      at counted
    have bound := Bool.toNat_le widget.state.submitting
    omega
  constructor
  · exact rendered
  · intro other member
    have before := sound.runs other (List.mem_cons_of_mem _ member)
    exact ⟨before.phase, epoch ▸ before.epoch, fun isCurrent =>
      absurd (isCurrent.trans epoch) (stale_of_none none member)⟩
  · rw [epoch, none, idle]
    rfl

/-- A run starts while none is current. -/
theorem Widget.Sound.start
    (sound : widget.Sound inFlight)
    (idle : widget.state.submitting = false)
    (rendered : next.Rendered)
    (epoch : next.opEpoch = widget.opEpoch)
    (busy : next.state.submitting = true)
    (current : run.myEpoch = widget.opEpoch)
    (phase : run.phase ≠ .requestAccount)
    (draft :
      ∀ composing,
        next.state.composing = some composing →
        Utf16.trim composing.draft = run.draft) :
    next.Sound (inFlight ++ [.submit run]) := by
  have none :
      inFlight.countP (Pending.ofEpoch widget.opEpoch) = 0 := by
    rw [sound.submitting, idle]
    rfl
  constructor
  · exact rendered
  · intro other member
    rcases List.mem_append.mp member with member | member
    · have before := sound.runs other member
      exact ⟨before.phase, epoch ▸ before.epoch, fun isCurrent =>
        absurd (isCurrent.trans epoch) (stale_of_none none member)⟩
    · cases List.mem_singleton.mp member
      exact ⟨phase, by rw [epoch, current],
        fun _ composing isComposing => .inl (draft composing isComposing)⟩
  · rw [epoch, List.countP_append, none, busy]
    simp [Pending.ofEpoch, current]

end Sound

@[simp] theorem fail_inFlight
    (widget : Widget)
    (error : String) :
    (widget.fail error).inFlight = widget.inFlight :=
  render_inFlight _

@[simp] theorem fail_state
    (widget : Widget)
    (error : String) :
    (widget.fail error).state =
      { widget.state with error := some error } :=
  render_state _

@[simp] theorem fail_opEpoch
    (widget : Widget)
    (error : String) :
    (widget.fail error).opEpoch = widget.opEpoch :=
  render_opEpoch _

@[simp] theorem failSubmit_inFlight
    (widget : Widget)
    (myEpoch : Nat)
    (error : String) :
    (widget.failSubmit myEpoch error).inFlight = widget.inFlight := by
  rw [Widget.failSubmit]
  split
  · rfl
  · exact fail_inFlight _ _

section Steps

variable {widget next : Widget}
variable {inFlight : List Pending}
variable {run : SubmitRun}

theorem Widget.Sound.fail
    (sound : widget.Sound inFlight)
    (error : String) :
    (widget.fail error).Sound inFlight :=
  sound.shown rfl rfl rfl

/-- The current run fails, or a stale one ends unseen. -/
theorem Widget.Sound.failSubmit
    (sound : widget.Sound (.submit run :: inFlight))
    (error : String) :
    (widget.failSubmit run.myEpoch error).Sound inFlight := by
  rw [Widget.failSubmit]
  by_cases current : run.myEpoch = widget.opEpoch
  · rw [if_neg (not_not.mpr current)]
    exact sound.finish current (rendered_render _) (fail_opEpoch _ _)
      (by rw [fail_state])
  · rw [if_pos current]
    exact sound.leave (by simp [Pending.ofEpoch, current])

theorem Widget.Sound.refresh
    (sound : widget.Sound widget.inFlight) :
    widget.refresh.Sound widget.refresh.inFlight := by
  rw [Widget.refresh]
  split
  · exact sound
  · exact (sound.enter (by simp)).update sound.rendered rfl rfl
      fun composing isComposing => .inr ⟨composing, isComposing, rfl⟩

/-- Every way a run of `onSubmit` goes on or ends. -/
theorem Widget.Sound.settleSubmit
    (sound : widget.Sound (.submit run :: widget.inFlight))
    {answer : Settled}
    (settled : widget.settleSubmit run answer = some next) :
    next.Sound next.inFlight := by
  have asked := (sound.runs run List.mem_cons_self).phase
  have kept
      (later : SubmitRun)
      (epoch : later.myEpoch = run.myEpoch)
      (draft : later.draft = run.draft)
      (phase : later.phase ≠ .requestAccount) :
      (widget.await (.submit later)).Sound
        (widget.await (.submit later)).inFlight :=
    (sound.continue epoch draft phase).update sound.rendered rfl rfl
      fun composing isComposing => .inr ⟨composing, isComposing, rfl⟩
  have failed (error : String) :
      (widget.failSubmit run.myEpoch error).Sound
        (widget.failSubmit run.myEpoch error).inFlight := by
    rw [failSubmit_inFlight]
    exact sound.failSubmit error
  rw [Widget.settleSubmit.eq_def] at settled
  split at settled
  · cases settled
    exact failed _
  · rename_i isPhase
    exact absurd isPhase asked
  · split at settled
    · rename_i stale
      cases settled
      exact sound.leave (by simpa [Pending.ofEpoch] using stale)
    · cases settled
      exact kept _ rfl rfl (by simp)
  · split at settled
    · cases settled
      exact failed _
    · cases settled
      exact kept _ rfl rfl (by simp)
  · cases settled
    exact kept _ rfl rfl (by simp)
  · dsimp only at settled
    split at settled
    · rename_i stale
      cases settled
      exact (sound.leave (by simpa [Pending.ofEpoch] using stale)).update
        sound.rendered rfl rfl
        fun composing isComposing => .inr ⟨composing, isComposing, rfl⟩
    · rename_i current
      cases settled
      apply Widget.Sound.refresh
      rw [render_inFlight]
      exact sound.finish (not_not.mp current) (rendered_render _)
        (render_opEpoch _) (by rw [render_state])
  · split at settled
    · cases settled
      exact failed _
    · cases settled
      exact kept _ rfl rfl (by simp)
  · cases settled

/-- Every way a promise settles. -/
theorem Widget.Sound.settle
    {pending : Pending}
    (sound : widget.Sound (pending :: widget.inFlight))
    {answer : Settled}
    (settled : widget.settle pending answer = some next) :
    next.Sound next.inFlight := by
  have rest
      (other : ∀ run, pending ≠ .submit run) :
      widget.Sound widget.inFlight := by
    apply sound.leave
    cases pending with
    | submit run =>
        exact absurd rfl (other run)
    | listForPost =>
        rfl
    | readExistingAccount =>
        rfl
    | requestAccount =>
        rfl
    | ensureSepolia account =>
        rfl
  rw [Widget.settle.eq_def] at settled
  split at settled
  · have sound := rest (by simp)
    split at settled
    · cases settled
      exact sound
    · cases settled
      rw [render_inFlight]
      exact sound.shown rfl rfl rfl
  · have sound := rest (by simp)
    split at settled
    · cases settled
      exact sound
    · cases settled
      rw [fail_inFlight]
      exact sound.shown rfl rfl rfl
  · have sound := rest (by simp)
    split at settled
    · cases settled
      exact sound
    · split at settled
      · cases settled
        rw [render_inFlight]
        exact sound.shown rfl rfl rfl
      · cases settled
        exact sound
  · cases settled
    exact ((rest (by simp)).enter (by simp)).update sound.rendered rfl rfl
      fun composing isComposing => .inr ⟨composing, isComposing, rfl⟩
  · cases settled
    rw [fail_inFlight]
    exact (rest (by simp)).fail _
  · cases settled
    rw [render_inFlight, Widget.wireAccountsChanged]
    split
    · exact (rest (by simp)).shown rfl rfl rfl
    · exact (rest (by simp)).shown rfl rfl rfl
  · cases settled
    rw [fail_inFlight]
    exact (rest (by simp)).fail _
  · exact sound.settleSubmit settled
  · cases settled

/-- A composer that is shown is one of the state, with an account and no
submission under way. -/
theorem Widget.Sound.composer
    (sound : widget.Sound inFlight)
    (enabled : widget.composerEnabled = true) :
    widget.destroyed = false ∧
      widget.state.account ≠ none ∧
      widget.state.submitting = false := by
  simp only [Widget.composerEnabled, Bool.and_eq_true,
    Bool.not_eq_true'] at enabled
  obtain ⟨⟨⟨alive, account⟩, -⟩, idle⟩ := enabled
  obtain ⟨sameAccount, sameSubmitting, -⟩ := sound.rendered alive
  refine ⟨alive, ?_, sameSubmitting ▸ idle⟩
  rw [← sameAccount]
  exact Option.isSome_iff_ne_none.mp account

theorem Widget.Sound.onSubmit
    (sound : widget.Sound widget.inFlight)
    (enabled : widget.submitEnabled = true)
    (provider : Bool) :
    (widget.onSubmit provider).Sound (widget.onSubmit provider).inFlight := by
  rw [Widget.submitEnabled, Bool.and_eq_true] at enabled
  obtain ⟨-, hasAccount, idle⟩ := sound.composer enabled.1
  rw [Widget.onSubmit.eq_def]
  split
  · exact sound
  · rename_i composing isComposing
    dsimp only
    split
    · exact sound
    · split
      · exact sound
      · split
        · rw [fail_inFlight]
          exact sound.fail _
        · cases provider with
          | false =>
              rw [if_neg (by simp), failSubmit_inFlight, render_inFlight,
                Widget.failSubmit, render_opEpoch, if_neg (by simp)]
              refine sound.shown ?_ ?_ ?_
              · simp
              · rw [idle]
              · rw [render_state]
          | true =>
              rw [if_pos rfl]
              split
              · rename_i noAccount
                exact absurd noAccount hasAccount
              · rw [Widget.await, render_inFlight]
                refine sound.start idle (rendered_render _) ?_ ?_ rfl
                  (by simp) ?_
                · exact render_opEpoch _
                · dsimp only
                  rw [render_state]
                · intro later isLater
                  dsimp only at isLater
                  rw [render_state, isComposing] at isLater
                  cases isLater
                  rfl

/-- Every step of a widget keeps the invariant. -/
theorem Widget.Sound.step
    (sound : widget.Sound widget.inFlight)
    {event : WidgetEvent}
    (stepped : widgetStep widget event = some next) :
    next.Sound next.inFlight := by
  cases steps_of_widgetStep stepped with
  | connect provider =>
      have cleared :
          Widget.Sound
            { widget with
              manuallyDisconnected := false
              state := { widget.state with error := none } }
            widget.inFlight :=
        sound.update sound.rendered rfl rfl
          fun composing isComposing => .inr ⟨composing, isComposing, rfl⟩
      rw [Widget.onConnect]
      cases provider with
      | false =>
          rw [if_neg (by simp), fail_inFlight]
          exact cleared.fail _
      | true =>
          rw [if_pos rfl]
          exact (cleared.enter (by simp)).update cleared.rendered rfl rfl
            fun composing isComposing =>
              .inr ⟨composing, isComposing, rfl⟩
  | disconnect =>
      rw [Widget.onDisconnect, render_inFlight]
      constructor
      · exact rendered_render _
      · intro run member
        have before := sound.runs run member
        have old := before.epoch
        refine ⟨before.phase, ?_, ?_⟩
        · rw [render_opEpoch]
          dsimp only
          omega
        · rw [render_opEpoch]
          dsimp only
          omega
      · rw [render_opEpoch, render_state]
        refine List.countP_eq_zero.mpr ?_
        intro pending member
        cases pending with
        | submit run =>
            have old := (sound.runs run member).epoch
            simp only [Pending.ofEpoch, decide_eq_true_eq]
            omega
        | listForPost =>
            simp [Pending.ofEpoch]
        | readExistingAccount =>
            simp [Pending.ofEpoch]
        | requestAccount =>
            simp [Pending.ofEpoch]
        | ensureSepolia account =>
            simp [Pending.ofEpoch]
  | startCompose parent =>
      rw [Widget.onStartCompose, render_inFlight]
      refine sound.update (rendered_render _) (render_opEpoch _) ?_ ?_
      · rw [render_state]
      · intro composing isComposing
        rw [render_state] at isComposing
        cases isComposing
        cases before : widget.state.composing with
        | none =>
            exact .inl rfl
        | some old =>
            exact .inr ⟨old, rfl, rfl⟩
  | cancelCompose =>
      rw [Widget.onCancelCompose, render_inFlight]
      refine sound.update (rendered_render _) (render_opEpoch _) ?_ ?_
      · rw [render_state]
      · intro composing isComposing
        rw [render_state] at isComposing
        cases isComposing
  | draftChange draft enabled =>
      obtain ⟨-, -, idle⟩ := sound.composer enabled
      have none :
          widget.inFlight.countP (Pending.ofEpoch widget.opEpoch) =
            0 := by
        rw [sound.submitting, idle]
        rfl
      constructor
      · intro alive
        obtain ⟨account, submitting, composing⟩ := sound.rendered alive
        exact ⟨account, submitting, composing.trans (by
          rw [Widget.onDraftChange, Option.isSome_map])⟩
      · intro run member
        have before := sound.runs run member
        exact ⟨before.phase, before.epoch, fun isCurrent =>
          absurd isCurrent (stale_of_none none member)⟩
      · exact sound.submitting
  | submit provider enabled =>
      exact sound.onSubmit enabled provider
  | accountsChanged account =>
      rw [Widget.onAccountsChanged]
      split
      · exact sound
      · rw [render_inFlight]
        refine sound.update (rendered_render _) (render_opEpoch _) ?_ ?_
        · rw [render_state]
        · intro composing isComposing
          rw [render_state] at isComposing
          split at isComposing
          · cases isComposing
          · exact .inr ⟨composing, isComposing, rfl⟩
  | pollTimer =>
      exact sound.refresh
  | settle index answer isPending settled =>
      obtain ⟨bound, isAt⟩ := List.getElem?_eq_some_iff.mp isPending
      have settling :
          Widget.Sound
            { widget with inFlight := widget.inFlight.eraseIdx index }
            (_ :: widget.inFlight.eraseIdx index) :=
        (sound.perm
          (isAt ▸ List.getElem_cons_eraseIdx_perm bound)).update
            sound.rendered rfl rfl
            fun composing isComposing =>
              .inr ⟨composing, isComposing, rfl⟩
      exact settling.settle settled
  | destroy =>
      exact sound.update (fun alive => by cases alive) rfl rfl
        fun composing isComposing => .inr ⟨composing, isComposing, rfl⟩

end Steps

end Comments
end Bam
