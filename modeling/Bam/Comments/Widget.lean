import Bam.Comments.Codec
import Bam.Comments.Thread
import Bam.Lib.Runs

namespace Bam
namespace Comments

/-!
# The widget

`mountInstance` keeps one mutable state under the clicks of a user, the events
of a wallet and the promises in flight, which settle in any order.  A click
reaches the widget through what was rendered last, so the view is part of the
state.  The texts of errors are what `describeError` makes of them.
-/

def MAX_STALE_NONCE_RETRIES : Nat := 8

def COMMENT_MAX_CHARS : Nat := 4000

/-- What `describeError` makes of the `WalletError` of `requireProvider`. -/
def WALLET_NOT_INSTALLED : String :=
  "No Ethereum wallet detected. Install MetaMask or a compatible extension."

structure Composing where
  parent : Option Bytes32
  draft : List UInt16
  deriving Repr, DecidableEq

structure MountState where
  account : Option Address
  messages : List DecodedMessage
  composing : Option Composing
  submitting : Bool
  error : Option String
  loading : Bool
  deriving Repr, DecidableEq

/-- The arguments of `submitMessage`, under the tag of the comments. -/
structure SubmitArgs where
  sender : Address
  nonce : Nat
  contents : Bytes
  signature : Bytes
  deriving Repr, DecidableEq

/-- What a run of `onSubmit` waits for. -/
inductive SubmitPhase where
  | requestAccount
  | ensureSepolia (account : Address)
  | getNextNonce (account : Address) (attempt : Nat)
  | signTypedData
      (account : Address)
      (attempt nonce : Nat)
      (contents : Bytes)
  | submitMessage (account : Address) (attempt : Nat)
  deriving Repr, DecidableEq

/-- A run of `onSubmit`: its own variables, where it waits, and the messages it
has sent. -/
structure SubmitRun where
  myEpoch : Nat
  draft : List UInt16
  parent : Option Bytes32
  phase : SubmitPhase
  sent : List SubmitArgs
  deriving Repr, DecidableEq

/-- The envelope `submitOnce` encodes. -/
def SubmitRun.envelope
    (run : SubmitRun)
    (postIdHash : Bytes32)
    (timestamp : Nat) : Envelope :=
  match run.parent with
  | none => .comment postIdHash timestamp (Utf16.decode run.draft)
  | some parent =>
      .reply postIdHash timestamp parent (Utf16.decode run.draft)

/-- A promise in flight. -/
inductive Pending where
  | listForPost
  | readExistingAccount
  | requestAccount
  | ensureSepolia (account : Address)
  | submit (run : SubmitRun)
  deriving Repr, DecidableEq

/-- How a promise settles. -/
inductive Settled where
  | rejected (error : String)
  | messages (found : List DecodedMessage)
  | existing (account : Option Address)
  | account (account : Address)
  | onSepolia
  /-- The nonce, and the time `submitOnce` reads next. -/
  | nextNonce (nonce timestamp : Nat)
  | signature (signature : Bytes)
  | accepted
  | refused (reason : String)
  deriving Repr, DecidableEq

/-- A mounted widget.  `acknowledged` are the runs of `onSubmit` whose message
the Poster accepted. -/
structure Widget where
  postIdHash : Bytes32
  state : MountState
  view : MountState
  destroyed : Bool
  opEpoch : Nat
  manuallyDisconnected : Bool
  cleanupAccountsChanged : Bool
  subscribed : Bool
  inFlight : List Pending
  acknowledged : List SubmitRun
  deriving DecidableEq

inductive WidgetEvent where
  | connect (provider : Bool)
  | disconnect
  | startCompose (parent : Option Bytes32)
  | cancelCompose
  | draftChange (draft : List UInt16)
  | submit (provider : Bool)
  | accountsChanged (next : Option Address)
  | pollTimer
  | settle (index : Nat) (answer : Settled)
  | destroy
  deriving Repr, DecidableEq

namespace Widget

section Functions

variable (widget : Widget)

/-- `render`: the view becomes what the state is. -/
def render : Widget :=
  if widget.destroyed then widget
  else { widget with view := widget.state }

def await (pending : Pending) : Widget :=
  { widget with inFlight := widget.inFlight ++ [pending] }

/-- The start of `refresh`. -/
def refresh : Widget :=
  if widget.destroyed then widget else widget.await .listForPost

def wireAccountsChanged : Widget :=
  if widget.cleanupAccountsChanged then widget
  else
    { widget with cleanupAccountsChanged := true, subscribed := true }

/-- An error that is shown. -/
def fail (error : String) : Widget :=
  render { widget with
    state := { widget.state with error := some error } }

/-- `onConnect` up to `requestAccount`; `provider` says whether there is a
wallet. -/
def onConnect (provider : Bool) : Widget :=
  let cleared :=
    { widget with
      manuallyDisconnected := false
      state := { widget.state with error := none } }
  if provider then cleared.await .requestAccount
  else cleared.fail WALLET_NOT_INSTALLED

def onDisconnect : Widget :=
  render { widget with
    opEpoch := widget.opEpoch + 1
    manuallyDisconnected := true
    state := { widget.state with
      account := none
      composing := none
      error := none
      submitting := false } }

def onStartCompose (parent : Option Bytes32) : Widget :=
  render { widget with
    state := { widget.state with
      composing := some {
        parent := parent
        draft :=
          match widget.state.composing with
          | none => []
          | some composing => composing.draft }
      error := none } }

def onCancelCompose : Widget :=
  render { widget with
    state := { widget.state with composing := none } }

def onDraftChange (draft : List UInt16) : Widget :=
  { widget with
    state := { widget.state with
      composing := widget.state.composing.map fun composing =>
        { composing with draft := draft } } }

/-- The `catch` of `onSubmit`. -/
def failSubmit (myEpoch : Nat) (error : String) : Widget :=
  if myEpoch ≠ widget.opEpoch then widget
  else
    fail { widget with
      state := { widget.state with submitting := false } } error

/-- `onSubmit` up to its first `await`. -/
def onSubmit (provider : Bool) : Widget :=
  match widget.state.composing with
  | none => widget
  | some composing =>
      let draft := Utf16.trim composing.draft
      if widget.state.submitting then widget
      else if draft = [] then widget
      else if COMMENT_MAX_CHARS < (Utf16.decode draft).length then
        widget.fail "comment too long (max 4000 characters)"
      else
        let submitting :=
          render { widget with
            state := { widget.state with
              submitting := true
              error := none } }
        let run (phase : SubmitPhase) : Pending :=
          .submit {
            myEpoch := widget.opEpoch
            draft := draft
            parent := composing.parent
            phase := phase
            sent := [] }
        if provider then
          match widget.state.account with
          | none => submitting.await (run .requestAccount)
          | some account => submitting.await (run (.ensureSepolia account))
        else submitting.failSubmit widget.opEpoch WALLET_NOT_INSTALLED

/-- The handler of `accountsChanged`. -/
def onAccountsChanged (next : Option Address) : Widget :=
  if widget.manuallyDisconnected && next.isSome then widget
  else
    render { widget with
      state := { widget.state with
        account := next
        composing :=
          if next = none then none else widget.state.composing } }

/-- A run goes on waiting. -/
def continueSubmit (run : SubmitRun) (phase : SubmitPhase) : Widget :=
  widget.await (.submit { run with phase := phase })

/-- A run of `onSubmit` that settles; `none` where the answer is not of what it
waits for. -/
def settleSubmit
    (run : SubmitRun)
    (answer : Settled) : Option Widget :=
  match run.phase, answer with
  | _, .rejected error => some (widget.failSubmit run.myEpoch error)
  | .requestAccount, .account account =>
      if run.myEpoch ≠ widget.opEpoch then some widget
      else
        some (continueSubmit
          { widget with
            state := { widget.state with account := some account } }
          run (.ensureSepolia account))
  | .ensureSepolia account, .onSepolia =>
      if run.myEpoch ≠ widget.opEpoch then some widget
      else some (widget.continueSubmit run (.getNextNonce account 0))
  | .getNextNonce account attempt, .nextNonce nonce timestamp =>
      match encodeCommentContents
          (run.envelope widget.postIdHash timestamp) with
      | .error error =>
          some (widget.failSubmit run.myEpoch error.message)
      | .ok contents =>
          some (widget.continueSubmit run
            (.signTypedData account attempt nonce contents))
  | .signTypedData account attempt nonce contents, .signature signature =>
      some (widget.await (.submit { run with
        phase := .submitMessage account attempt
        sent := run.sent ++
          [{ sender := account
             nonce := nonce
             contents := contents
             signature := signature }] }))
  | .submitMessage _ _, .accepted =>
      let acknowledged :=
        { widget with acknowledged := widget.acknowledged ++ [run] }
      if run.myEpoch ≠ widget.opEpoch then some acknowledged
      else
        some (refresh (render { acknowledged with
          state := { acknowledged.state with
            composing := none
            submitting := false } }))
  | .submitMessage account attempt, .refused reason =>
      if reason ≠ "stale_nonce" ∨ attempt = MAX_STALE_NONCE_RETRIES then
        some (widget.failSubmit run.myEpoch reason)
      else
        some (widget.continueSubmit run
          (.getNextNonce account (attempt + 1)))
  | _, _ => none

/-- A promise that settles; it is no longer in flight. -/
def settle (pending : Pending) (answer : Settled) : Option Widget :=
  match pending, answer with
  | .listForPost, .messages found =>
      if widget.destroyed then some widget
      else
        some (render { widget with
          state := { widget.state with
            messages := found
            loading := false } })
  | .listForPost, .rejected error =>
      if widget.destroyed then some widget
      else
        some (fail { widget with
          state := { widget.state with loading := false } } error)
  | .readExistingAccount, .existing existing =>
      if widget.manuallyDisconnected then some widget
      else if existing ≠ none ∧ widget.state.account = none then
        some (render { widget with
          state := { widget.state with account := existing } })
      else some widget
  | .requestAccount, .account account =>
      some (widget.await (.ensureSepolia account))
  | .requestAccount, .rejected error => some (widget.fail error)
  | .ensureSepolia account, .onSepolia =>
      some (render (wireAccountsChanged { widget with
        state := { widget.state with account := some account } }))
  | .ensureSepolia _, .rejected error => some (widget.fail error)
  | .submit run, answer => widget.settleSubmit run answer
  | _, _ => none

/-- A composer that is rendered, and not greyed out. -/
def composerEnabled : Bool :=
  !widget.destroyed && widget.view.account.isSome &&
    widget.view.composing.isSome && !widget.view.submitting

/-- The submit button is enabled for the draft it was rendered with. -/
def submitEnabled : Bool :=
  widget.composerEnabled &&
    widget.view.composing.any fun composing =>
      Utf16.trim composing.draft ≠ []

end Functions

end Widget

/-- A step of a widget; `none` where what was rendered offers no such click. -/
def widgetStep (widget : Widget) : WidgetEvent → Option Widget
  | .connect provider =>
      if widget.destroyed ∨ widget.view.account.isSome then none
      else some (widget.onConnect provider)
  | .disconnect =>
      if widget.destroyed ∨ widget.view.account = none then none
      else some widget.onDisconnect
  | .startCompose parent =>
      if widget.destroyed ∨ widget.view.account = none then none
      else if parent = none ∧ widget.view.composing.isSome then none
      else some (widget.onStartCompose parent)
  | .cancelCompose =>
      if widget.composerEnabled then some widget.onCancelCompose
      else none
  | .draftChange draft =>
      if widget.composerEnabled then some (widget.onDraftChange draft)
      else none
  | .submit provider =>
      if widget.submitEnabled then some (widget.onSubmit provider)
      else none
  | .accountsChanged next =>
      if widget.subscribed then some (widget.onAccountsChanged next)
      else none
  | .pollTimer =>
      if widget.destroyed then none else some widget.refresh
  | .settle index answer =>
      match widget.inFlight[index]? with
      | none => none
      | some pending =>
          Widget.settle
            { widget with inFlight := widget.inFlight.eraseIdx index }
            pending answer
  | .destroy =>
      if widget.destroyed then none
      else some { widget with destroyed := true, subscribed := false }

/-- `mountInstance`; `provider` says whether there is a wallet. -/
def mountInstance
    (postIdHash : Bytes32)
    (provider : Bool) : Widget :=
  let state : MountState := {
    account := none
    messages := []
    composing := none
    submitting := false
    error := none
    loading := true }
  { postIdHash := postIdHash
    state := state
    view := state
    destroyed := false
    opEpoch := 0
    manuallyDisconnected := false
    cleanupAccountsChanged := provider
    subscribed := provider
    inFlight :=
      (if provider then [.readExistingAccount] else []) ++ [.listForPost]
    acknowledged := [] }

end Comments
end Bam
