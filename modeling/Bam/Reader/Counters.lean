import Bam.Lib.Accounting
import Bam.Reader.LiveTail

namespace Bam

/-!
# What a call counts

The counters of a Reader are sums.  Every message of a decoded batch is counted
once, as written, as in conflict or as unverified, and `processBatch` adds what
it finds to whatever the counters were.  A call of it adds its outcome when it
returns, and on top of that the conflicts its failed transactions met.
-/

attribute [ext] ReaderCounters

namespace ReaderCounters

instance instZero : Zero ReaderCounters := ⟨emptyCounters⟩

instance instAdd : Add ReaderCounters where
  add first second := {
    decoded := first.decoded + second.decoded
    skippedDecode := first.skippedDecode + second.skippedDecode
    skippedVerify := first.skippedVerify + second.skippedVerify
    skippedConflict := first.skippedConflict + second.skippedConflict
    undecodable := first.undecodable + second.undecodable
    skippedRange := first.skippedRange + second.skippedRange }

section Fields

variable (first second : ReaderCounters)

@[simp] theorem zero_decoded : (0 : ReaderCounters).decoded = 0 := rfl

@[simp] theorem zero_skippedDecode :
    (0 : ReaderCounters).skippedDecode = 0 := rfl

@[simp] theorem zero_skippedVerify :
    (0 : ReaderCounters).skippedVerify = 0 := rfl

@[simp] theorem zero_skippedConflict :
    (0 : ReaderCounters).skippedConflict = 0 := rfl

@[simp] theorem zero_undecodable :
    (0 : ReaderCounters).undecodable = 0 := rfl

@[simp] theorem zero_skippedRange :
    (0 : ReaderCounters).skippedRange = 0 := rfl

@[simp] theorem add_decoded :
    (first + second).decoded = first.decoded + second.decoded := rfl

@[simp] theorem add_skippedDecode :
    (first + second).skippedDecode =
      first.skippedDecode + second.skippedDecode := rfl

@[simp] theorem add_skippedVerify :
    (first + second).skippedVerify =
      first.skippedVerify + second.skippedVerify := rfl

@[simp] theorem add_skippedConflict :
    (first + second).skippedConflict =
      first.skippedConflict + second.skippedConflict := rfl

@[simp] theorem add_undecodable :
    (first + second).undecodable =
      first.undecodable + second.undecodable := rfl

@[simp] theorem add_skippedRange :
    (first + second).skippedRange =
      first.skippedRange + second.skippedRange := rfl

end Fields

instance instAddCommMonoid : AddCommMonoid ReaderCounters where
  add_assoc first second third := by
    ext <;> exact Nat.add_assoc _ _ _
  zero_add counters := by
    ext <;> exact Nat.zero_add _
  add_zero counters := by
    ext <;> exact Nat.add_zero _
  add_comm first second := by
    ext <;> exact Nat.add_comm _ _
  nsmul := nsmulRec

instance instIsLeftCancelAdd : IsLeftCancelAdd ReaderCounters where
  add_left_cancel counters first second same := by
    simp only [ReaderCounters.ext_iff, add_decoded, add_skippedDecode,
      add_skippedVerify, add_skippedConflict, add_undecodable,
      add_skippedRange, Nat.add_left_cancel_iff] at same
    exact ReaderCounters.ext_iff.mpr same

/-- A sum of counters is zero where all its terms are. -/
theorem add_eq_zero_iff
    (first second : ReaderCounters) :
    first + second = 0 ↔ first = 0 ∧ second = 0 := by
  simp only [ReaderCounters.ext_iff, add_decoded, add_skippedDecode,
    add_skippedVerify, add_skippedConflict, add_undecodable,
    add_skippedRange, zero_decoded, zero_skippedDecode,
    zero_skippedVerify, zero_skippedConflict, zero_undecodable,
    zero_skippedRange]
  omega

theorem empty_add
    (counters : ReaderCounters) : emptyCounters + counters = counters :=
  zero_add counters

/-- What became of the messages of one batch. -/
def ofMessages
    (written refused conflicts : Nat) : ReaderCounters :=
  { emptyCounters with
    decoded := written
    skippedVerify := refused
    skippedConflict := conflicts }

theorem ofMessages_eq_zero_iff
    {written refused conflicts : Nat} :
    ofMessages written refused conflicts = 0 ↔
      written = 0 ∧ refused = 0 ∧ conflicts = 0 := by
  rw [ReaderCounters.ext_iff]
  exact ⟨fun same => ⟨same.1, same.2.2.1, same.2.2.2.1⟩,
    fun same => ⟨same.1, rfl, same.2.1, same.2.2, rfl, rfl⟩⟩

section OfMessages

variable (counters : ReaderCounters)

/-- One more refusal is counted before the others. -/
theorem skipVerify_add_ofMessages
    (refused : Nat) :
    { counters with skippedVerify := counters.skippedVerify + 1 } +
        ofMessages 0 refused 0 =
      counters + ofMessages 0 (refused + 1) 0 := by
  ext
  · rfl
  · rfl
  · exact Nat.add_right_comm counters.skippedVerify 1 refused
  · rfl
  · rfl
  · rfl

/-- One more conflict is counted before the others. -/
theorem skipConflict_add_ofMessages
    (conflicts : Nat) :
    { counters with skippedConflict := counters.skippedConflict + 1 } +
        ofMessages 0 0 conflicts =
      counters + ofMessages 0 0 (conflicts + 1) := by
  ext
  · rfl
  · rfl
  · rfl
  · exact Nat.add_right_comm counters.skippedConflict 1 conflicts
  · rfl
  · rfl

/-- The written messages are counted last. -/
theorem write_add_ofMessages
    (written refused conflicts : Nat) :
    { counters + ofMessages 0 refused 0 + ofMessages 0 0 conflicts with
        decoded := counters.decoded + written } =
      counters + ofMessages written refused conflicts := by
  ext
  · rfl
  · rfl
  · rfl
  · rfl
  · rfl
  · rfl

/-- Conflicts can be counted with the rest of an outcome. -/
theorem conflicts_add
    (outcome : ReaderCounters)
    (conflicts : Nat) :
    { counters + outcome with
        skippedConflict := (counters + outcome).skippedConflict + conflicts } =
      counters + (outcome + ofMessages 0 0 conflicts) := by
  ext
  · rfl
  · rfl
  · rfl
  · exact Nat.add_assoc _ _ _
  · rfl
  · rfl

/-- So can they where the written messages are left out. -/
theorem conflicts_add_cut
    (outcome : ReaderCounters)
    (conflicts : Nat) :
    { counters + outcome with
        decoded := counters.decoded
        skippedConflict := (counters + outcome).skippedConflict + conflicts } =
      counters +
        ({ outcome with decoded := 0 } + ofMessages 0 0 conflicts) :=
  conflicts_add counters { outcome with decoded := 0 } conflicts

end OfMessages

end ReaderCounters

section Messages

variable (libraries : ReaderLibraries) (opts : ProcessBatchOptions)

/-- The messages from an index on that fail their verification, up to one
whose nonce is out of range. -/
def refusals : Nat → List (BAMMessage × Bytes) → Nat
  | _, [] => 0
  | index, (message, signature) :: rest =>
      match computeMessageHash libraries.crypto.keccak256 message.sender
          opts.event.contentTag message.nonce message.contents with
      | none => 0
      | some _ =>
          refusals (index + 1) rest +
            if verifyMessage libraries.crypto opts.event.signatureRegistry
                message opts.event.contentTag signature opts.chainId
                (opts.verifyAnswer index) then 0
            else 1

/-- The verify loop counts the messages it refuses. -/
theorem verifyMessages_counts
    (index : Nat)
    (decoded : List (BAMMessage × Bytes))
    (counters : ReaderCounters) :
    (verifyMessages libraries opts index decoded counters).1 =
      counters + .ofMessages 0 (refusals libraries opts index decoded) 0 := by
  induction decoded generalizing index counters with
  | nil => exact (add_zero counters).symm
  | cons head rest inductionHypothesis =>
      obtain ⟨message, signature⟩ := head
      simp only [verifyMessages, refusals]
      cases computeMessageHash libraries.crypto.keccak256 message.sender
          opts.event.contentTag message.nonce message.contents with
      | none => exact (add_zero counters).symm
      | some messageHash =>
          dsimp only
          split
          · have counted := inductionHypothesis (index + 1) counters
            cases later : verifyMessages libraries opts (index + 1) rest
                counters with
            | mk after outcome =>
                rw [later] at counted
                cases outcome with
                | error error => exact counted
                | ok verified => exact counted
          · rw [inductionHypothesis]
            exact ReaderCounters.skipVerify_add_ofMessages ..

/-- The write loop counts every verified message once, as written or as in
conflict. -/
theorem observeMessages_counts
    {verified : List VerifiedEntry}
    (valid : ∀ entry ∈ verified, entry.Valid libraries opts)
    (store : Store) :
    ∃ next landed conflicts,
      landed + conflicts = verified.length ∧
        ∀ counters written,
          observeMessages libraries opts verified store counters written =
            (counters + .ofMessages 0 0 conflicts,
              .ok (next, written + landed)) := by
  induction verified generalizing store with
  | nil =>
      refine ⟨store, 0, 0, rfl, fun counters written => ?_⟩
      exact congrArg₂ Prod.mk (add_zero counters).symm rfl
  | cons entry rest inductionHypothesis =>
      have restValid : ∀ other ∈ rest, other.Valid libraries opts :=
        fun other member =>
          valid other (List.mem_cons_of_mem entry member)
      obtain ⟨row, isRow, inRange⟩ :=
        (valid entry List.mem_cons_self).row
      cases observed : store.upsertObserved row with
      | ok between =>
          obtain ⟨next, landed, conflicts, total, counts⟩ :=
            inductionHypothesis restValid between
          refine ⟨next, landed + 1, conflicts, ?_, ?_⟩
          · rw [List.length_cons, ← total]
            exact Nat.add_right_comm landed 1 conflicts
          · intro counters written
            simp only [observeMessages, isRow, observed]
            rw [counts, Nat.add_assoc, Nat.add_comm 1 landed]
      | error error =>
          have isConflict := conflict_of_upsertObserved inRange observed
          subst isConflict
          obtain ⟨next, landed, conflicts, total, counts⟩ :=
            inductionHypothesis restValid store
          refine ⟨next, landed, conflicts + 1, ?_, ?_⟩
          · rw [List.length_cons, ← total]
            rfl
          · intro counters written
            simp only [observeMessages, isRow, observed]
            rw [counts, ReaderCounters.skipConflict_add_ofMessages]

end Messages

section Readings

/-- What `processBatch` makes of a segment before it writes. -/
inductive SegmentReading where
  | rejected
  | unreachable
  | unextracted (error : BlobError)
  | undecoded
  | decoded (batch : DecodedBatch)

/-- The reading of a segment. -/
def readingOf
    (libraries : ReaderLibraries)
    (opts : ProcessBatchOptions) : SegmentReading :=
  let startFE := opts.event.startFE.getD 0
  let endFE := opts.event.endFE.getD FIELD_ELEMENTS_PER_BLOB
  if (validateSegmentRange startFE endFE).isSome then .rejected
  else
    match opts.fetchBlob with
    | none => .unreachable
    | some blobBytes =>
        match extractSegmentBytes blobBytes startFE endFE with
        | .error error => .unextracted error
        | .ok usableBytes =>
            match decode libraries.decompress opts.event.decoder
                usableBytes (opts.decodeAnswer usableBytes) with
            | .error _ => .undecoded
            | .ok decoded => .decoded decoded

variable (libraries : ReaderLibraries) (opts : ProcessBatchOptions)

/-- The verified messages of a decoded batch. -/
def verifiedOf
    (batch : DecodedBatch) :
    Except ProcessBatchError (List VerifiedEntry) :=
  (verifyMessages libraries opts 0 (batch.messages.zip batch.signatures)
    emptyCounters).2

/-- `processBatch` goes by the reading of its segment. -/
theorem processBatch_of_reading
    (store : Store)
    (counters : ReaderCounters) :
    processBatch libraries opts store counters =
      match readingOf libraries opts with
      | .rejected =>
          ({ counters with skippedRange := counters.skippedRange + 1 },
            .ok (store, opts.result .range_rejected 0))
      | .unreachable =>
          ({ counters with undecodable := counters.undecodable + 1 },
            .ok (store.upsertBatch opts.baseBatch,
              opts.result .unreachable 0))
      | .unextracted error => (counters, .error (.extract error))
      | .undecoded =>
          ({ counters with skippedDecode := counters.skippedDecode + 1 },
            .ok (store.upsertBatch opts.baseBatch,
              opts.result .decode_failed 0))
      | .decoded batch =>
          processDecoded libraries opts store counters batch := by
  unfold processBatch readingOf
  dsimp only
  split
  · rfl
  cases opts.fetchBlob with
  | none => rfl
  | some blobBytes =>
      dsimp only
      cases extractSegmentBytes blobBytes (opts.event.startFE.getD 0)
          (opts.event.endFE.getD FIELD_ELEMENTS_PER_BLOB) with
      | error error => rfl
      | ok usableBytes =>
          dsimp only
          cases decode libraries.decompress opts.event.decoder usableBytes
              (opts.decodeAnswer usableBytes) with
          | error error => rfl
          | ok decoded => rfl

/-- So does what it verifies. -/
theorem readSegment_of_reading :
    readSegment libraries opts =
      match readingOf libraries opts with
      | .rejected => none
      | .unreachable => some []
      | .unextracted _ => none
      | .undecoded => some []
      | .decoded batch => (verifiedOf libraries opts batch).toOption := by
  unfold readSegment readingOf
  dsimp only
  split
  · rfl
  cases opts.fetchBlob with
  | none => rfl
  | some blobBytes =>
      dsimp only
      cases extractSegmentBytes blobBytes (opts.event.startFE.getD 0)
          (opts.event.endFE.getD FIELD_ELEMENTS_PER_BLOB) with
      | error error => rfl
      | ok usableBytes =>
          dsimp only
          cases decode libraries.decompress opts.event.decoder usableBytes
              (opts.decodeAnswer usableBytes) with
          | error error => rfl
          | ok decoded => rfl

/-- A segment that its on-chain decoder rejects is undecoded. -/
theorem readingOf_undecoded
    {blobBytes : Bytes}
    {startFE endFE : Nat}
    (isStart : opts.event.startFE = some startFE)
    (isEnd : opts.event.endFE = some endFE)
    (inRange : ValidRange (startFE, endFE))
    (fetched : opts.fetchBlob = some blobBytes)
    (long : endFE * BYTES_PER_FIELD_ELEMENT ≤ blobBytes.length)
    (onChain : opts.event.decoder ≠ 0)
    (rejects : ∀ usableBytes, opts.decodeAnswer usableBytes = none) :
    readingOf libraries opts = .undecoded := by
  obtain ⟨ordered, bounded⟩ := (validRange_iff _).mp inRange
  unfold readingOf extractSegmentBytes decode
  unfold ValidRange at inRange
  simp only [isStart, isEnd, Option.getD_some, inRange, fetched, rejects,
    Option.isSome_none, Bool.false_eq_true, if_false,
    if_neg (Nat.not_lt.mpr bounded), if_neg (Nat.not_le.mpr ordered),
    if_neg (Nat.not_lt.mpr long), if_neg onChain]
  rfl

/-- A decoded batch counts every message once, whatever the counters were. -/
theorem processDecoded_counts
    (store : Store)
    (batch : DecodedBatch) :
    match verifiedOf libraries opts batch with
    | .error error =>
        ∀ counters,
          processDecoded libraries opts store counters batch =
            (counters + .ofMessages 0
              (refusals libraries opts 0
                (batch.messages.zip batch.signatures)) 0, .error error)
    | .ok verified =>
        ∃ next landed,
          landed + FailedAttempt.conflicts libraries opts verified
              ⟨store, verified.length⟩ = verified.length ∧
            ∀ counters,
              processDecoded libraries opts store counters batch =
                (counters + .ofMessages landed
                  (refusals libraries opts 0
                    (batch.messages.zip batch.signatures))
                  (FailedAttempt.conflicts libraries opts verified
                    ⟨store, verified.length⟩),
                  .ok (next, opts.result .decoded landed)) := by
  have verification :
      ∀ counters,
        verifyMessages libraries opts 0
            (batch.messages.zip batch.signatures) counters =
          (counters + .ofMessages 0
            (refusals libraries opts 0
              (batch.messages.zip batch.signatures)) 0,
            verifiedOf libraries opts batch) :=
    fun counters =>
      Prod.ext (verifyMessages_counts libraries opts 0 _ counters)
        (verifyMessages_counters libraries opts 0 _ counters emptyCounters)
  cases kept : verifiedOf libraries opts batch with
  | error error =>
      intro counters
      simp only [processDecoded, verification, kept]
  | ok verified =>
      have valid := verifyMessages_valid kept
      have snapshotted :
          verified.mapM (VerifiedEntry.toSnapshotEntry libraries opts) =
            some (verified.filterMap
              (VerifiedEntry.toSnapshotEntry libraries opts)) := by
        apply mapM_eq_filterMap
        intro entry member
        obtain ⟨messageId, identified⟩ := (valid entry member).messageId
        rw [VerifiedEntry.toSnapshotEntry, identified]
        exact ⟨_, rfl⟩
      obtain ⟨next, landed, conflicts, total, observed⟩ :=
        observeMessages_counts libraries opts valid
          (store.upsertBatch (opts.batchRow libraries verified))
      have isConflicts :
          FailedAttempt.conflicts libraries opts verified
            ⟨store, verified.length⟩ = conflicts := by
        unfold FailedAttempt.conflicts
        rw [List.take_length, observed]
        exact Nat.zero_add conflicts
      refine ⟨next, landed, isConflicts ▸ total, fun counters => ?_⟩
      simp only [processDecoded, verification, kept, snapshotted]
      rw [ProcessBatchOptions.batchRow] at observed
      rw [observed, isConflicts, Nat.zero_add]
      refine Prod.ext ?_ rfl
      exact ReaderCounters.write_add_ofMessages counters landed _ conflicts

/-- What a call of `processBatch` counts on its own. -/
def outcomeOf
    (store : Store) : ReaderCounters :=
  (processBatch libraries opts store emptyCounters).1

/-- `processBatch` adds its outcome to the counters. -/
theorem processBatch_counts
    (store : Store)
    (counters : ReaderCounters) :
    processBatch libraries opts store counters =
      (counters + outcomeOf libraries opts store,
        (processBatch libraries opts store emptyCounters).2) := by
  unfold outcomeOf
  rw [processBatch_of_reading, processBatch_of_reading]
  cases readingOf libraries opts with
  | rejected => rfl
  | unreachable => rfl
  | unextracted error => rfl
  | undecoded => rfl
  | decoded batch =>
      have counts := processDecoded_counts libraries opts store batch
      dsimp only
      cases verified : verifiedOf libraries opts batch with
      | error error =>
          rw [verified] at counts
          rw [counts, counts]
          exact Prod.ext (by rw [← add_assoc]; rfl) rfl
      | ok entries =>
          rw [verified] at counts
          obtain ⟨next, landed, -, counted⟩ := counts
          rw [counted, counted]
          exact Prod.ext (congrArg (counters + ·) (zero_add _).symm) rfl

end Readings

section Calls

/-- A call of `processBatch` in a pass, with the store it finds. -/
structure BatchCall where
  opts : ProcessBatchOptions
  answers : EventAnswers
  store : Store

variable (libraries : ReaderLibraries)

/-- What the batch of a call counts. -/
def BatchCall.outcome
    (call : BatchCall) : ReaderCounters :=
  outcomeOf libraries call.opts call.store

/-- The conflicts that the failed attempts of a call have counted. -/
def BatchCall.retried
    (call : BatchCall)
    (fate : StoreFate) : Nat :=
  retriedConflicts libraries call.opts (call.answers.attempted fate)

/-- What a call adds to the counters. -/
def BatchCall.gain
    (call : BatchCall) : ReaderCounters :=
  let outcome := call.outcome libraries
  match (processBatch libraries call.opts call.store emptyCounters).2 with
  | .error _ => outcome
  | .ok (_, result) =>
      let fate :=
        if result.outcome = .range_rejected then .commits
        else call.answers.fate
      match fate with
      | .commits => outcome + .ofMessages 0 0 (call.retried libraries fate)
      | .rollsBack =>
          { outcome with
            decoded := 0
            skippedConflict := call.retried libraries fate }
      | .unacknowledged =>
          { outcome with decoded := 0 } +
            .ofMessages 0 0 (call.retried libraries fate)

/-- The call of `processBatch` for an event. -/
def callFor
    (config : ReaderConfig)
    (event : BlobBatchRegisteredEvent)
    (timestampUnixSec : Nat)
    (answers : EventAnswers)
    (state : ReaderState) : BatchCall where
  opts := config.processOptions event timestampUnixSec answers
  answers := answers
  store := state.store

/-- A call adds its gain, however it ends. -/
theorem gains_processEvent
    (config : ReaderConfig)
    (event : BlobBatchRegisteredEvent)
    (timestampUnixSec : Nat)
    (answers : EventAnswers) :
    Attempt.Gains ReaderState.counters
      (processEvent config event timestampUnixSec answers) fun state =>
        (callFor config event timestampUnixSec answers state).gain
          config.libraries := by
  intro state
  unfold processEvent BatchCall.gain BatchCall.outcome
  dsimp only [callFor]
  rw [processBatch_counts]
  cases (processBatch config.libraries
      (config.processOptions event timestampUnixSec answers) state.store
      emptyCounters).2 with
  | error error => rfl
  | ok returned =>
      obtain ⟨store, result⟩ := returned
      dsimp only
      cases (if result.outcome = .range_rejected then StoreFate.commits
        else answers.fate) with
      | commits => exact ReaderCounters.conflicts_add ..
      | rollsBack => rfl
      | unacknowledged => exact ReaderCounters.conflicts_add_cut ..

/-- A call that returns adds its outcome and the conflicts of its failed
attempts. -/
theorem gain_of_returned
    {config : ReaderConfig}
    {event : BlobBatchRegisteredEvent}
    {timestampUnixSec : Nat}
    {answers : EventAnswers}
    {before after : ReaderState}
    {result : ProcessBatchResult}
    (returned :
      processEvent config event timestampUnixSec answers before =
        (after, .ok result)) :
    let call := callFor config event timestampUnixSec answers before
    call.gain config.libraries =
      call.outcome config.libraries +
        .ofMessages 0 0 (call.retried config.libraries .commits) := by
  unfold processEvent at returned
  dsimp only at returned
  rw [processBatch_counts] at returned
  unfold BatchCall.gain
  dsimp only [callFor]
  cases executed : (processBatch config.libraries
      (config.processOptions event timestampUnixSec answers) before.store
      emptyCounters).2 with
  | error error =>
      rw [executed] at returned
      cases returned
  | ok stored =>
      obtain ⟨store, other⟩ := stored
      rw [executed] at returned
      dsimp only at returned ⊢
      cases fate : (if other.outcome = .range_rejected
        then StoreFate.commits else answers.fate) with
      | commits => rfl
      | rollsBack =>
          rw [fate] at returned
          cases returned
      | unacknowledged =>
          rw [fate] at returned
          cases returned

/-- A call that adds nothing to the counters: its segment is decoded and no
message of it is refused, in conflict or counted as written, or it is cut
before. -/
def BatchCall.Silent
    (call : BatchCall) : Prop :=
  match readingOf libraries call.opts with
  | .unextracted _ => True
  | .decoded batch =>
      refusals libraries call.opts 0
          (batch.messages.zip batch.signatures) = 0 ∧
        match verifiedOf libraries call.opts batch with
        | .error _ => True
        | .ok verified =>
            (∀ attempt ∈ call.answers.attempted call.answers.fate,
              attempt.conflicts libraries call.opts verified = 0) ∧
              match call.answers.fate with
              | .commits => verified = []
              | .rollsBack => True
              | .unacknowledged =>
                  FailedAttempt.conflicts libraries call.opts verified
                    ⟨call.store, verified.length⟩ = 0
  | _ => False

theorem retriedConflicts_eq_zero_iff
    {opts : ProcessBatchOptions}
    {verified : List VerifiedEntry}
    (isRead : readSegment libraries opts = some verified)
    (failed : List FailedAttempt) :
    retriedConflicts libraries opts failed = 0 ↔
      ∀ attempt ∈ failed,
        attempt.conflicts libraries opts verified = 0 := by
  unfold retriedConflicts
  rw [isRead]
  refine List.sum_eq_zero_iff_forall_eq_nat.trans ?_
  exact List.forall_mem_map

/-- A call leaves the counters exactly if it is silent. -/
theorem gain_eq_zero_iff
    (call : BatchCall) :
    call.gain libraries = 0 ↔ call.Silent libraries := by
  unfold BatchCall.gain BatchCall.Silent BatchCall.outcome outcomeOf
  rw [processBatch_of_reading]
  cases reading : readingOf libraries call.opts with
  | rejected =>
      refine ⟨fun same => ?_, False.elim⟩
      have counted := congrArg ReaderCounters.skippedRange same
      cases counted
  | unreachable =>
      refine ⟨fun same => ?_, False.elim⟩
      have counted := congrArg ReaderCounters.undecodable same
      cases isFate : call.answers.fate <;>
        simp [ProcessBatchOptions.result, isFate] at counted
  | unextracted error => exact ⟨fun _ => trivial, fun _ => rfl⟩
  | undecoded =>
      refine ⟨fun same => ?_, False.elim⟩
      have counted := congrArg ReaderCounters.skippedDecode same
      cases isFate : call.answers.fate <;>
        simp [ProcessBatchOptions.result, isFate] at counted
  | decoded batch =>
      have counts :=
        processDecoded_counts libraries call.opts call.store batch
      dsimp only
      cases verified : verifiedOf libraries call.opts batch with
      | error error =>
          rw [verified] at counts
          rw [counts, ReaderCounters.empty_add]
          exact ReaderCounters.ofMessages_eq_zero_iff.trans
            ⟨fun same => ⟨same.2.1, trivial⟩,
              fun same => ⟨rfl, same.1, rfl⟩⟩
      | ok entries =>
          rw [verified] at counts
          obtain ⟨next, landed, total, counted⟩ := counts
          have isRead :
              readSegment libraries call.opts = some entries := by
            rw [readSegment_of_reading, reading]
            exact congrArg Except.toOption verified
          have attempts :=
            retriedConflicts_eq_zero_iff libraries isRead
              (call.answers.attempted call.answers.fate)
          have isEmpty :
              entries = [] ↔
                landed = 0 ∧
                  FailedAttempt.conflicts libraries call.opts entries
                    ⟨call.store, entries.length⟩ = 0 := by
            rw [← Nat.add_eq_zero_iff, total, List.length_eq_zero_iff]
          rw [counted, ReaderCounters.empty_add]
          dsimp only [ProcessBatchOptions.result, BatchCall.retried]
          rw [if_neg (by decide), ← attempts]
          cases call.answers.fate with
          | commits =>
              rw [ReaderCounters.add_eq_zero_iff,
                ReaderCounters.ofMessages_eq_zero_iff,
                ReaderCounters.ofMessages_eq_zero_iff, isEmpty]
              tauto
          | rollsBack =>
              refine Iff.trans
                (@ReaderCounters.ofMessages_eq_zero_iff 0 _ _) ?_
              tauto
          | unacknowledged =>
              refine (ReaderCounters.add_eq_zero_iff
                (.ofMessages 0 _ _) _).trans ?_
              rw [ReaderCounters.ofMessages_eq_zero_iff,
                ReaderCounters.ofMessages_eq_zero_iff]
              tauto

end Calls

end Bam
