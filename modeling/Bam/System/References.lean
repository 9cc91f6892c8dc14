import Bam.System.Steps

namespace Bam

/-!
# Confirmed messages and their batches

A confirmed message row names a batch row and repeats its block position.  The
batch row is overwritten whenever its transaction is recorded again, the message
row is not.  They agree in every run that records a transaction again only at
the position its confirmed messages carry.
-/

/-- The message row names a confirmed batch row at its own position. -/
def Store.Refers
    (store : Store)
    (row : MessageRow) : Prop :=
  ∃ chainId txHash batch,
    row.chainId = some chainId ∧
    row.batchRef = some txHash ∧
    store.batch? (chainId, txHash, row.contentTag) = some batch ∧
    batch.status = .confirmed ∧
    row.blockNumber = batch.blockNumber ∧
    row.txIndex = batch.txIndex

/-- Every confirmed message refers to its batch. -/
def World.ConfirmedRefer (world : World) : Prop :=
  ∀ key row,
    world.store.message? key = some row →
    row.status = .confirmed →
    world.store.Refers row

/-- The confirmed messages of a transaction under the given tags stand at a
position. -/
def Store.standAt
    (store : Store)
    (chainId : Nat)
    (txHash : Bytes32)
    (contentTags : List Bytes32)
    (blockNumber txIndex : Nat) : Bool :=
  store.messages.rows.all fun row =>
    !(row.isConfirmedIn chainId txHash && row.contentTag ∈ contentTags) ||
      (row.blockNumber = some blockNumber && row.txIndex = some txIndex)

/-- A transaction is recorded only at the position of the messages confirmed in
it. -/
def recordsAllow
    (config : SystemConfig)
    (world : World) : SystemEvent → Bool
  | .processBatch opts =>
      world.store.standAt config.chainId opts.event.txHash
        [opts.event.contentTag] opts.event.blockNumber opts.event.txIndex
  | .shared (.poster (.tickConfirm txHash _)) =>
      match world.broadcasts.get? txHash with
      | some { phase := .included receipt, pack, .. } =>
          world.store.standAt config.chainId txHash
            ((submittedEntries pack).map
              PackedSubmitIncludedEntry.contentTag)
            receipt.blockNumber receipt.transactionIndex
      | _ => true
  | _ => true

theorem Store.standAt_iff
    {store : Store}
    {chainId : Nat}
    {txHash : Bytes32}
    {contentTags : List Bytes32}
    {blockNumber txIndex : Nat} :
    store.standAt chainId txHash contentTags blockNumber txIndex = true ↔
      ∀ key row,
        store.message? key = some row →
        row.isConfirmedIn chainId txHash = true →
        row.contentTag ∈ contentTags →
        row.blockNumber = some blockNumber ∧
          row.txIndex = some txIndex := by
  rw [standAt, List.all_eq_true]
  constructor
  · intro stand key row found confirmed tagged
    have here := stand row (Table.mem_of_get? found)
    simpa [confirmed, tagged] using here
  · intro stand row member
    by_cases within :
        row.isConfirmedIn chainId txHash = true ∧
          row.contentTag ∈ contentTags
    · have here :=
        stand row.key row (Table.mem_rows_iff.mp member) within.1 within.2
      simp [here]
    · simp only [Bool.or_eq_true, Bool.not_eq_true', Bool.and_eq_false_iff,
        decide_eq_false_iff_not]
      exact .inl (by
        by_cases confirmed : row.isConfirmedIn chainId txHash = true
        · exact .inr fun tagged => within ⟨confirmed, tagged⟩
        · exact .inl (Bool.not_eq_true _ ▸ confirmed))

theorem confirmedRefer_initial : World.initial.ConfirmedRefer := by
  intro key row found
  cases found

/-- A message refers as before when its batch row keeps all but its link. -/
theorem Store.Refers.of_withoutReplacement
    {store next : Store}
    {row : MessageRow}
    (refers : store.Refers row)
    (same :
      ∀ chainId txHash,
        row.chainId = some chainId →
        row.batchRef = some txHash →
        (next.batch? (chainId, txHash, row.contentTag)).map
            BatchRow.withoutReplacement =
          (store.batch? (chainId, txHash, row.contentTag)).map
            BatchRow.withoutReplacement) :
    next.Refers row := by
  obtain ⟨chainId, txHash, batch, ofChain, ofTx, found, confirmed, block,
    index⟩ := refers
  have unchanged := same chainId txHash ofChain ofTx
  rw [found, Option.map_some] at unchanged
  obtain ⟨after, isAfter, core⟩ := Option.map_eq_some_iff.mp unchanged
  exact ⟨chainId, txHash, after, ofChain, ofTx, isAfter,
    (congrArg BatchRow.status core).trans confirmed,
    block.trans (congrArg BatchRow.blockNumber core).symm,
    index.trans (congrArg BatchRow.txIndex core).symm⟩

/-- A mark of a transaction without confirmed messages left keeps every
reference. -/
theorem refers_of_marked
    {world : World}
    {next : Store}
    {chainId : Nat}
    {txHash : Bytes32}
    {invalidatedAt : Int}
    (refer : world.ConfirmedRefer)
    (batches :
      ∀ key,
        next.batch? key =
          (world.store.batch? key).map fun other =>
            if other.isOf chainId txHash then
              other.markedReorged invalidatedAt
            else other)
    (messages :
      ∀ key row,
        next.message? key = some row →
        row.status = .confirmed →
        world.store.message? key = some row ∧
          row.isConfirmedIn chainId txHash = false) :
    ∀ key row,
      next.message? key = some row →
      row.status = .confirmed →
      next.Refers row := by
  intro key row found confirmed
  obtain ⟨before, otherTx⟩ := messages key row found confirmed
  have referred := refer key row before confirmed
  apply referred.of_withoutReplacement
  intro ofChainId ofTxHash isChain isTx
  rw [batches]
  cases stored :
      world.store.batch? (ofChainId, ofTxHash, row.contentTag) with
  | none =>
      rfl
  | some batch =>
      have keyed := Store.key_of_batch? stored
      have unmarked : ¬ batch.isOf chainId txHash = true := by
        intro inTx
        obtain ⟨sameChain, sameTx⟩ := BatchRow.isOf_iff.mp inTx
        have ofChain : row.chainId = some chainId := by
          rw [isChain, ← sameChain]
          exact congrArg some (congrArg Prod.fst keyed).symm
        have ofTx : row.batchRef = some txHash := by
          rw [isTx, ← sameTx]
          exact congrArg some
            (congrArg (fun other : BatchKey => other.2.1) keyed).symm
        have inRow : row.isConfirmedIn chainId txHash = true :=
          MessageRow.isConfirmedIn_iff.mpr ⟨ofTx, ofChain, confirmed⟩
        rw [inRow] at otherTx
        cases otherTx
      simp only [Option.map_some, if_neg unmarked]

/-- A row confirmed after a mark was there before, in another transaction. -/
theorem message?_of_confirmed_markReorged
    {store next : Store}
    {chainId : Nat}
    {txHash : Bytes32}
    {invalidatedAt : Int}
    {key : MessageKey}
    {row : MessageRow}
    (marked :
      store.markReorged chainId txHash invalidatedAt = .ok next)
    (found : next.message? key = some row)
    (confirmed : row.status = .confirmed) :
    store.message? key = some row ∧
      row.isConfirmedIn chainId txHash = false := by
  rw [Store.message?_markReorged marked] at found
  obtain ⟨old, isOld, isRow⟩ := Option.map_eq_some_iff.mp found
  split at isRow
  · rw [← isRow] at confirmed
    cases confirmed
  · rename_i otherTx
    subst isRow
    exact ⟨isOld, Bool.eq_false_iff.mpr otherTx⟩

theorem confirmedRefer_confirmed
    {config : SystemConfig}
    {world : World}
    {next : Store}
    {broadcast : Broadcast}
    {receipt : TransactionReceipt}
    {submittedAt : Int}
    (refer : world.ConfirmedRefer)
    (stand :
      world.store.standAt config.chainId broadcast.txHash
        ((submittedEntries broadcast.pack).map
          PackedSubmitIncludedEntry.contentTag)
        receipt.blockNumber receipt.transactionIndex = true)
    (committed :
      confirmIncluded config.keccak256 config.loop world.store
        (World.outcomeOf config broadcast receipt) submittedAt =
          .ok next) :
    ∀ key row,
      next.message? key = some row →
      row.status = .confirmed →
      next.Refers row := by
  intro key row found confirmed
  rcases message?_confirmEntries committed key with
    same | ⟨entry, member, message, -, position, messageId, old, -, -, -,
      -, isRow⟩
  · rw [same] at found
    have referred := refer key row found confirmed
    obtain ⟨chainId, txHash, batch, ofChain, ofTx, -⟩ := referred
    rcases batch?_confirmIncluded committed
        (chainId, txHash, row.contentTag) with
      ⟨⟨after, isAfter, status, block, index⟩, entry, member, ofKey⟩ | kept
    · obtain ⟨isChain, isTx, isTag⟩ :
          chainId = config.chainId ∧ txHash = broadcast.txHash ∧
            row.contentTag = entry.contentTag := by
        simpa using ofKey
      subst isChain isTx
      have position :=
        Store.standAt_iff.mp stand key row found
          (MessageRow.isConfirmedIn_iff.mpr ⟨ofTx, ofChain, confirmed⟩)
          (isTag ▸ List.mem_map_of_mem member)
      exact ⟨_, _, after, ofChain, ofTx, isAfter, status,
        position.1.trans block.symm, position.2.trans index.symm⟩
    · apply (refer key row found confirmed).of_withoutReplacement
      intro otherChain otherTx isChain isTx
      cases ofChain.symm.trans isChain
      cases ofTx.symm.trans isTx
      exact kept
  · rw [isRow, Option.some.injEq] at found
    subst found
    obtain ⟨after, isAfter, status, block, index⟩ :=
      (batch?_confirmEntries committed).1 entry member
    exact ⟨_, _, after, rfl, rfl, isAfter, status, block.symm,
      index.symm⟩

theorem confirmedRefer_recordBatch
    {libraries : ReaderLibraries}
    {opts : ProcessBatchOptions}
    {world : World}
    {verified : List VerifiedEntry}
    (refer : world.ConfirmedRefer)
    (stand :
      world.store.standAt opts.chainId opts.event.txHash
        [opts.event.contentTag] opts.event.blockNumber
        opts.event.txIndex = true) :
    ∀ key row,
      (world.store.recordBatch (opts.batchRow libraries verified)
          (opts.messageRows libraries verified)).message? key =
        some row →
      row.status = .confirmed →
      (world.store.recordBatch (opts.batchRow libraries verified)
        (opts.messageRows libraries verified)).Refers row := by
  intro key row found confirmed
  have ofBatch :
      (world.store.recordBatch (opts.batchRow libraries verified)
          (opts.messageRows libraries verified)).batch?
          (opts.chainId, opts.event.txHash, opts.event.contentTag) =
        some (world.store.merged (opts.batchRow libraries verified)) := by
    rw [Store.batch?_recordBatch, Store.batch?_upsertBatch]
    exact if_pos rfl
  rcases Store.message?_recordBatch world.store
      (opts.batchRow libraries verified)
      (opts.messageRows libraries verified) key with
    same | ⟨written, member, -, isWritten, -⟩
  · rw [same] at found
    obtain ⟨chainId, txHash, batch, ofChain, ofTx, isBatch, facts⟩ :=
      refer key row found confirmed
    by_cases isEvent :
        (chainId, txHash, row.contentTag) =
          (opts.chainId, opts.event.txHash, opts.event.contentTag)
    · obtain ⟨isChain, isTx, isTag⟩ :
          chainId = opts.chainId ∧ txHash = opts.event.txHash ∧
            row.contentTag = opts.event.contentTag := by
        simpa using isEvent
      subst isChain isTx
      have position :=
        Store.standAt_iff.mp stand key row found
          (MessageRow.isConfirmedIn_iff.mpr ⟨ofTx, ofChain, confirmed⟩)
          (isTag ▸ List.mem_singleton_self _)
      refine ⟨_, _, _, ofChain, ofTx, isTag ▸ ofBatch, ?_, ?_, ?_⟩
      · exact world.store.status_merged _
      · rw [Store.blockNumber_merged]
        exact position.1
      · rw [Store.txIndex_merged]
        exact position.2
    · refine ⟨chainId, txHash, batch, ofChain, ofTx, ?_, facts⟩
      rw [Store.batch?_recordBatch, Store.batch?_upsertBatch]
      exact (if_neg fun same => isEvent same.symm).trans isBatch
  · rw [isWritten, Option.some.injEq] at found
    subst found
    obtain ⟨entry, -, written⟩ := List.mem_filterMap.mp member
    obtain ⟨messageId, -, isRow⟩ := Option.map_eq_some_iff.mp written
    subst isRow
    refine ⟨_, _, _, rfl, rfl, ofBatch, ?_, ?_, ?_⟩
    · exact world.store.status_merged _
    · rw [Store.blockNumber_merged]
      rfl
    · rw [Store.txIndex_merged]
      rfl

/-- A store with the same messages and batches has the same references. -/
theorem World.ConfirmedRefer.of_rows
    {world next : World}
    (refer : world.ConfirmedRefer)
    (batches : next.store.batches = world.store.batches)
    (messages :
      ∀ key row,
        next.store.message? key = some row →
        row.status = .confirmed →
        world.store.message? key = some row) :
    next.ConfirmedRefer := by
  intro key row found confirmed
  apply (refer key row (messages key row found confirmed)
    confirmed).of_withoutReplacement
  intro chainId txHash _ _
  rw [Store.batch?, batches, Store.batch?]

theorem confirmedRefer_posterStep
    {config : SystemConfig}
    {world next : World}
    {event : PosterEvent}
    (refer : world.ConfirmedRefer)
    (allowed :
      recordsAllow config world (.shared (.poster event)) = true)
    (taken : posterStep config world event = some next) :
    next.ConfirmedRefer := by
  have unwritten : next.store = world.store → next.ConfirmedRefer := by
    intro same
    rw [World.ConfirmedRefer, same]
    exact refer
  cases posterStep_cases taken with
  | quiet same =>
      exact unwritten same.store
  | ingested raw withinRateLimit now =>
      refine refer.of_rows
        (batches_ingest config world raw withinRateLimit now) ?_
      intro key row found confirmed
      rcases message?_ingest config world raw withinRateLimit now key
        with same | ⟨decoded, seq, -, -, -, isRow, -⟩
      · exact same ▸ found
      · rw [isRow, Option.some.injEq] at found
        subst found
        cases confirmed
  | prepared read ticked nonempty same =>
      exact unwritten same.store
  | sent found isSent fresh unconfirmed same =>
      exact unwritten same.store
  | phased found leads arrived same =>
      exact unwritten same.store
  | @confirmed broadcast receipt _ _ found included committed =>
      refine confirmedRefer_confirmed refer ?_ committed
      cases broadcast with
      | mk txHash pack blobVersionedHash phase earlier markedBefore =>
          subst included
          simp only [recordsAllow, found] at allowed
          exact allowed
  | restarted =>
      exact unwritten rfl
  | watched stepped =>
      rcases watchStep_store stepped with
        ⟨same, -⟩ | ⟨judgement, invalidatedAt, ingestedAt, onChain, -, -,
          reorged, -⟩
      · exact unwritten same
      · refine refers_of_marked refer
          (fun key => batch?_reorgBatch reorged key) ?_
        intro key row found confirmed
        exact ⟨message?_of_confirmed_reorgBatch reorged found confirmed,
          not_isConfirmedIn_reorgBatch reorged found⟩
  | chained canonical =>
      exact unwritten rfl

theorem confirmedRefer_readerWatch
    {config : SystemConfig}
    {world next : World}
    {action : WatchAction}
    (refer : world.ConfirmedRefer)
    (taken : world.readerWatchStep config action = some next) :
    next.ConfirmedRefer := by
  obtain ⟨outcome, stepped, rfl⟩ := readerWatchStep_cases taken
  rcases watchStep_store stepped with
    ⟨same, -⟩ | ⟨judgement, invalidatedAt, ingestedAt, onChain, -, -,
      reorged, -⟩
  · simp only [World.ConfirmedRefer, same]
    exact refer
  · exact refers_of_marked refer
      (fun key => Store.batch?_markReorged reorged key)
      fun key row found confirmed =>
        message?_of_confirmed_markReorged reorged found confirmed

theorem confirmedRefer_processBatch
    {config : SystemConfig}
    {world next : World}
    {opts : ProcessBatchOptions}
    (refer : world.ConfirmedRefer)
    (allowed : recordsAllow config world (.processBatch opts) = true)
    (taken : systemStep config world (.processBatch opts) = some next) :
    next.ConfirmedRefer := by
  have ofChain : opts.chainId = config.chainId := by
    by_contra otherChain
    simp only [systemStep, if_neg otherChain] at taken
    cases taken
  obtain ⟨store, stepped, rfl⟩ := systemStep_processBatch taken
  have recorded := readerStep_processBatch stepped
  cases isRead : readSegment config.libraries opts with
  | none =>
      rw [isRead] at recorded
      rw [World.ConfirmedRefer, recorded]
      exact refer
  | some verified =>
      rw [isRead] at recorded
      rw [World.ConfirmedRefer, recorded.2]
      rw [recordsAllow, ← ofChain] at allowed
      exact confirmedRefer_recordBatch refer allowed

/-- In a run that records transactions only at the position of the messages
confirmed in them, every confirmed message refers to its batch. -/
theorem confirmedRefer_of_records
    {config : SystemConfig}
    {events : List SystemEvent}
    (allowed :
      Runs.AllSteps (systemStep config)
        (fun world event => recordsAllow config world event = true)
        World.initial events) :
    Runs.AllStates (systemStep config) World.ConfirmedRefer
      World.initial events := by
  refine Runs.allStates_of_invariant ?_ confirmedRefer_initial allowed
  intro world event next refer eventAllowed taken
  cases event with
  | shared event =>
      cases event with
      | poster event =>
          exact confirmedRefer_posterStep refer eventAllowed taken
      | readerWatch action =>
          exact confirmedRefer_readerWatch refer taken
  | processBatch opts =>
      exact confirmedRefer_processBatch refer eventAllowed taken

/-- The batch of transaction 1, seen at two blocks. -/
def includedAgain (blockNumber : Nat) : List SystemEvent :=
  [.processBatch (sampleBatch 1 [3]),
    .processBatch { sampleBatch 1 [3] with
      event := { (sampleBatch 1 [3]).event with
        blockNumber := blockNumber } }]

/-- Seeing a batch twice at one block. -/
theorem confirmedRefer_of_same_block :
    Runs.AllStates (systemStep sampleConfig) World.ConfirmedRefer
      World.initial (includedAgain 100) :=
  confirmedRefer_of_records (by decide +kernel)

set_option synthInstance.maxSize 1000 in
/-- A transaction that moved to another block takes its batch row along and
leaves its messages behind. -/
theorem moved_transaction_splits_rows :
    ¬ Runs.AllStates (systemStep sampleConfig) World.ConfirmedRefer
      World.initial (includedAgain 101) := by
  intro all
  have view :
      (Runs.exec? (systemStep sampleConfig) World.initial
        (includedAgain 101)).map
          (fun world =>
            ((world.store.message? (7, 0)).map fun row =>
                (row.status, row.chainId, row.batchRef, row.contentTag,
                  row.blockNumber),
              (world.store.batch? (1, 1, 5)).map BatchRow.blockNumber)) =
        some (some (.confirmed, some 1, some 1, 5, some 100),
          some (some 101)) := by
    decide +kernel
  obtain ⟨final, executed, isView⟩ := Option.map_eq_some_iff.mp view
  obtain ⟨rowView, batchView⟩ := Prod.mk.inj isView
  obtain ⟨row, found, facts⟩ := Option.map_eq_some_iff.mp rowView
  simp only [Prod.mk.injEq] at facts
  obtain ⟨confirmed, ofChain, ofTx, ofTag, atBlock⟩ := facts
  obtain ⟨chainId, txHash, batch, isChain, isTx, isBatch, -, block, -⟩ :=
    all.final executed (7, 0) row found confirmed
  cases ofChain.symm.trans isChain
  cases ofTx.symm.trans isTx
  rw [ofTag] at isBatch
  rw [isBatch, Option.map_some, ← block, atBlock] at batchView
  cases batchView

end Bam
