import Bam.Reader.Convergence
import Bam.Reader.LogScan

namespace Bam

/-!
# Events and batch rows

A transaction may register one content tag several times, and each time is an
event of its own.  A batch row is keyed by transaction and content tag.  This
module says when the rows represent the events a Reader has processed, over
all orders of processing.
-/

/-- What tells two events of one chain apart. -/
def BlobBatchRegisteredEvent.id
    (event : BlobBatchRegisteredEvent) : Bytes32 × Nat :=
  (event.txHash, event.logIndex)

/-- The key of the batch row a call writes. -/
def ProcessBatchOptions.batchKey
    (opts : ProcessBatchOptions) : BatchKey :=
  (opts.chainId, opts.event.txHash, opts.event.contentTag)

/-- A store and the calls that have returned, the latest first. -/
structure EventHistory where
  store : Store
  processed : List ProcessBatchOptions

def EventHistory.empty : EventHistory where
  store := Store.empty
  processed := []

/-- One call; a call that throws writes nothing. -/
def eventStep
    (libraries : ReaderLibraries)
    (history : EventHistory)
    (opts : ProcessBatchOptions) : Option EventHistory :=
  match (processBatch libraries opts history.store emptyCounters).2 with
  | .ok (next, _) =>
      some { store := next, processed := opts :: history.processed }
  | .error _ => some history

/-- The snapshot entries of the messages a call verifies. -/
def ProcessBatchOptions.snapshot
    (libraries : ReaderLibraries)
    (opts : ProcessBatchOptions)
    (verified : List VerifiedEntry) : List BatchMessageSnapshotEntry :=
  (opts.batchRow libraries verified).messageSnapshot

/-- Distinct events have distinct rows, and the row of an event records every
message verified for it. -/
structure EventHistory.Represented
    (libraries : ReaderLibraries)
    (history : EventHistory) : Prop where
  distinct :
    ∀ first ∈ history.processed, ∀ second ∈ history.processed,
      (readSegment libraries first).isSome →
      (readSegment libraries second).isSome →
      first.batchKey = second.batchKey →
      first.chainId = second.chainId ∧ first.event.id = second.event.id
  recorded :
    ∀ opts ∈ history.processed, ∀ verified,
      readSegment libraries opts = some verified →
      ∃ batch,
        history.store.batch? opts.batchKey = some batch ∧
          ∀ entry ∈ opts.snapshot libraries verified,
            entry ∈ batch.messageSnapshot

/-- A call for a row that is taken is for the event that took it, and verifies
nothing or all that was verified before. -/
def eventAllows
    (libraries : ReaderLibraries)
    (history : EventHistory)
    (opts : ProcessBatchOptions) : Prop :=
  ∀ verified, readSegment libraries opts = some verified →
    ∀ earlier ∈ history.processed, ∀ before,
      readSegment libraries earlier = some before →
      earlier.batchKey = opts.batchKey →
      earlier.event.id = opts.event.id ∧
        (verified = [] ∨
          ∀ entry ∈ earlier.snapshot libraries before,
            entry ∈ opts.snapshot libraries verified)

theorem eventStep_cases
    {libraries : ReaderLibraries}
    {history next : EventHistory}
    {opts : ProcessBatchOptions}
    (taken : eventStep libraries history opts = some next) :
    match readSegment libraries opts with
    | none =>
        next.store = history.store ∧
          (next.processed = history.processed ∨
            next.processed = opts :: history.processed)
    | some verified =>
        (∀ entry ∈ verified, entry.Valid libraries opts) ∧
          next.store =
            history.store.recordBatch (opts.batchRow libraries verified)
              (opts.messageRows libraries verified) ∧
          next.processed = opts :: history.processed := by
  have stored :=
    processBatch_store libraries opts history.store emptyCounters
  unfold eventStep at taken
  split
  · rename_i unwritten
    rw [unwritten] at stored
    split at taken
    · rename_i store result returned
      cases taken
      exact ⟨stored store result returned, .inr rfl⟩
    · cases taken
      exact ⟨rfl, .inl rfl⟩
  · rename_i verified isRead
    rw [isRead] at stored
    obtain ⟨valid, result, returned⟩ := stored
    rw [returned] at taken
    cases taken
    exact ⟨valid, rfl, rfl⟩

section Recorded

variable {libraries : ReaderLibraries}
variable {opts : ProcessBatchOptions}
variable {verified : List VerifiedEntry}

/-- The row of the event a call recorded. -/
theorem batch?_recorded
    (store : Store)
    (key : BatchKey) :
    (store.recordBatch (opts.batchRow libraries verified)
        (opts.messageRows libraries verified)).batch? key =
      if opts.batchKey = key then
        some (store.merged (opts.batchRow libraries verified))
      else store.batch? key := by
  rw [Store.batch?_recordBatch, Store.batch?_upsertBatch]
  rfl

/-- The snapshot a call leaves in its row: its own, or the older one where it
verified nothing. -/
theorem messageSnapshot_recorded
    (store : Store)
    (valid : ∀ entry ∈ verified, entry.Valid libraries opts) :
    (store.merged (opts.batchRow libraries verified)).messageSnapshot =
      if verified = [] then
        match store.batch? opts.batchKey with
        | none => []
        | some existing => existing.messageSnapshot
      else opts.snapshot libraries verified := by
  by_cases unread : verified = []
  · subst unread
    rw [if_pos rfl]
    exact store.messageSnapshot_merged_nil rfl
  · rw [if_neg unread]
    exact store.messageSnapshot_merged (snapshot_ne_nil valid unread)

end Recorded

/-- Calls that write nothing leave the events represented. -/
theorem represented_unwritten
    {libraries : ReaderLibraries}
    {history next : EventHistory}
    {opts : ProcessBatchOptions}
    (good : history.Represented libraries)
    (unread : readSegment libraries opts = none)
    (sameStore : next.store = history.store)
    (processed :
      next.processed = history.processed ∨
        next.processed = opts :: history.processed) :
    next.Represented libraries := by
  have earlier :
      ∀ other ∈ next.processed,
        (readSegment libraries other).isSome →
        other ∈ history.processed := by
    intro other member written
    rcases processed with same | added
    · exact same ▸ member
    · rw [added] at member
      rcases List.mem_cons.mp member with rfl | member
      · rw [unread] at written
        cases written
      · exact member
  constructor
  · intro first isFirst second isSecond firstWritten secondWritten
    exact good.distinct first (earlier first isFirst firstWritten) second
      (earlier second isSecond secondWritten) firstWritten secondWritten
  · intro other member verified isRead
    rw [sameStore]
    exact good.recorded other
      (earlier other member (by rw [isRead]; rfl)) verified isRead

theorem represented_iff_eventAllows
    {libraries : ReaderLibraries}
    {history next : EventHistory}
    {opts : ProcessBatchOptions}
    (good : history.Represented libraries)
    (taken : eventStep libraries history opts = some next) :
    next.Represented libraries ↔ eventAllows libraries history opts := by
  have stepped := eventStep_cases taken
  cases isRead : readSegment libraries opts with
  | none =>
      rw [isRead] at stepped
      constructor
      · intro _ verified contradictory
        rw [isRead] at contradictory
        cases contradictory
      · intro _
        exact represented_unwritten good isRead stepped.1 stepped.2
  | some verified =>
      rw [isRead] at stepped
      obtain ⟨valid, isStore, isProcessed⟩ := stepped
      have written : (readSegment libraries opts).isSome := by
        rw [isRead]
        rfl
      have own :
          next.store.batch? opts.batchKey =
            some (history.store.merged
              (opts.batchRow libraries verified)) := by
        rw [isStore, batch?_recorded]
        exact if_pos rfl
      have isOwn : opts ∈ next.processed := by
        rw [isProcessed]
        exact List.mem_cons_self
      constructor
      · intro nextGood some isSome earlier member before wasRead sameKey
        cases isRead.symm.trans isSome
        have isEarlier : earlier ∈ next.processed := by
          rw [isProcessed]
          exact List.mem_cons_of_mem opts member
        refine ⟨(nextGood.distinct earlier isEarlier opts isOwn
          (by rw [wasRead]; rfl) written sameKey).2, ?_⟩
        by_cases unread : verified = []
        · exact .inl unread
        · refine .inr fun entry isEntry => ?_
          obtain ⟨batch, found, records⟩ :=
            nextGood.recorded earlier isEarlier before wasRead
          rw [sameKey, own, Option.some.injEq] at found
          have kept := records entry isEntry
          rw [← found, messageSnapshot_recorded _ valid,
            if_neg unread] at kept
          exact kept
      · intro allowed
        constructor
        · intro first isFirst second isSecond firstWritten secondWritten
            sameKey
          have sameChain : first.chainId = second.chainId :=
            congrArg Prod.fst sameKey
          refine ⟨sameChain, ?_⟩
          obtain ⟨firstVerified, firstRead⟩ :=
            Option.isSome_iff_exists.mp firstWritten
          obtain ⟨secondVerified, secondRead⟩ :=
            Option.isSome_iff_exists.mp secondWritten
          rw [isProcessed] at isFirst isSecond
          rcases List.mem_cons.mp isFirst with firstIsOpts | wasFirst
          · rcases List.mem_cons.mp isSecond with secondIsOpts | wasSecond
            · rw [firstIsOpts, secondIsOpts]
            · rw [firstIsOpts] at sameKey ⊢
              exact (allowed verified isRead second wasSecond
                secondVerified secondRead sameKey.symm).1.symm
          · rcases List.mem_cons.mp isSecond with secondIsOpts | wasSecond
            · rw [secondIsOpts] at sameKey ⊢
              exact (allowed verified isRead first wasFirst firstVerified
                firstRead sameKey).1
            · exact (good.distinct first wasFirst second wasSecond
                firstWritten secondWritten sameKey).2
        · intro other isOther before wasRead
          rw [isProcessed] at isOther
          by_cases sameKey : other.batchKey = opts.batchKey
          · refine ⟨_, sameKey ▸ own, fun entry isEntry => ?_⟩
            rw [messageSnapshot_recorded _ valid]
            rcases List.mem_cons.mp isOther with rfl | isOther
            · cases isRead.symm.trans wasRead
              split
              · rename_i unread
                subst unread
                cases isEntry
              · exact isEntry
            · split
              · obtain ⟨batch, found, records⟩ :=
                  good.recorded other isOther before wasRead
                rw [← sameKey, found]
                exact records entry isEntry
              · rename_i verifiesSome
                exact ((allowed verified isRead other isOther before
                  wasRead sameKey).2.resolve_left verifiesSome) entry
                  isEntry
          · rcases List.mem_cons.mp isOther with rfl | isOther
            · exact absurd rfl sameKey
            · obtain ⟨batch, found, records⟩ :=
                good.recorded other isOther before wasRead
              refine ⟨batch, ?_, records⟩
              rw [isStore, batch?_recorded,
                if_neg fun same => sameKey same.symm]
              exact found

/-- The rows represent the processed events throughout a run exactly if every
call for a row that is taken is for the same event and keeps its record. -/
theorem represented_iff_calls_allowed
    (libraries : ReaderLibraries)
    (calls : List ProcessBatchOptions) :
    Runs.AllStates (eventStep libraries)
        (EventHistory.Represented libraries) EventHistory.empty calls ↔
      Runs.AllSteps (eventStep libraries) (eventAllows libraries)
        EventHistory.empty calls :=
  Runs.allStates_iff_allSteps
    (fun _ _ => trivial)
    (fun _ good taken => represented_iff_eventAllows good taken)
    calls (show (fun _ => True) EventHistory.empty from trivial)
    { distinct := fun _ member => absurd member List.not_mem_nil
      recorded := fun _ member => absurd member List.not_mem_nil }

/-- Two registrations of one content tag in one transaction, for different
segments of one blob. -/
def repeatedTagCalls : List BlobBatchCall :=
  [{ blobIndex := 0, startFE := 0, endFE := 1, contentTag := 5, decoder := 1,
      signatureRegistry := 1 },
    { blobIndex := 0, startFE := 1, endFE := 2, contentTag := 5, decoder := 1,
      signatureRegistry := 1 }]

/-- The events a Reader scans when the contract has emitted the logs of the
two registrations. -/
def repeatedTagEvents : List BlobBatchRegisteredEvent :=
  match registerBlobBatches (fun _ => 3) 9 repeatedTagCalls with
  | .error _ => []
  | .ok logs =>
      eventsOfLogs (logs.zipIdx.map fun (log, logIndex) => {
        blockNumber := 100
        transactionIndex := 0
        logIndex := logIndex
        transactionHash := 2
        log := log })

/-- The calls for the two events; the decoder reads the nonce of the one
message off the segment. -/
def repeatedTagRun : List ProcessBatchOptions :=
  repeatedTagEvents.map fun event => {
    event := event
    l1IncludedAtUnixSec := some 0
    chainId := 1
    fetchBlob := some (List.replicate 63 0 ++ [1])
    decodeAnswer := fun usableBytes =>
      some ([⟨7, Bytewise.ofBE usableBytes, [3]⟩], [1])
    verifyAnswer := fun _ _ _ _ => some true }

/-- Both events write one row, and it keeps the message of the second only. -/
theorem repeated_tag_erases_snapshot :
    ¬ Runs.AllStates (eventStep sampleLibraries)
        (EventHistory.Represented sampleLibraries) EventHistory.empty
        repeatedTagRun ∧
      (Runs.exec? (eventStep sampleLibraries) EventHistory.empty
          repeatedTagRun).map
          (fun history =>
            (history.store.batch? (1, 2, 5)).map fun batch =>
              batch.messageSnapshot.map BatchMessageSnapshotEntry.key) =
        some (some [(7, 1)]) := by
  constructor
  · intro all
    have executed :
        (Runs.exec? (eventStep sampleLibraries) EventHistory.empty
          repeatedTagRun).map EventHistory.processed =
          some repeatedTagRun.reverse := rfl
    obtain ⟨final, isFinal, processed⟩ :=
      Option.map_eq_some_iff.mp executed
    have distinct := (all.final isFinal).distinct
    rw [processed] at distinct
    revert distinct
    decide +kernel
  · decide +kernel

end Bam
