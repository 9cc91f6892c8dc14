import Bam.System.Plans

namespace Bam

/-!
# Confirmed rows and executed transactions

A receipt says whether its transaction was executed or reverted.  The transport
drops that field, and the loop confirms every receipt it is handed.  Confirmed
rows name executed transactions in every run whose receipts are all of executed
transactions.
-/

/-- The transaction is recorded with the receipt of an execution. -/
def World.Executed
    (world : World)
    (txHash : Bytes32) : Prop :=
  ∃ receipt, world.RecordedAs txHash receipt ∧ receipt.status = true

/-- Confirmed rows name executed transactions. -/
structure World.ConfirmedExecuted
    (world : World) : Prop where
  batches :
    ∀ key batch,
      world.store.batch? key = some batch →
      batch.status = .confirmed →
      world.Executed batch.txHash
  messages :
    ∀ key row,
      world.store.message? key = some row →
      row.status = .confirmed →
      ∃ txHash, row.batchRef = some txHash ∧ world.Executed txHash

/-- The receipts that arrive are of executed transactions. -/
def receiptsAllow : PosterEvent → Bool
  | .tickReceipt _ (.ok receipt) => receipt.status
  | _ => true

/-- The receipt of the phase, if it has one, is of an execution. -/
def BroadcastPhase.Succeeds : BroadcastPhase → Prop
  | .included receipt => receipt.status = true
  | .recorded receipt => receipt.status = true
  | _ => True

/-- What steps with receipts of executions keep. -/
structure World.Receipted
    (world : World) : Prop extends world.ConfirmedExecuted where
  receipts :
    ∀ broadcast ∈ world.broadcasts.rows, broadcast.phase.Succeeds

theorem receipted_initial : World.initial.Receipted where
  batches := by
    intro key batch found
    cases found
  messages := by
    intro key row found
    cases found
  receipts := by
    intro broadcast member
    cases member

theorem World.Executed.posterStep
    {config : SystemConfig}
    {world next : World}
    {event : PosterEvent}
    {txHash : Bytes32}
    (executed : world.Executed txHash)
    (taken : posterStep config world event = some next) :
    next.Executed txHash := by
  obtain ⟨receipt, recorded, status⟩ := executed
  exact ⟨receipt, recordedAs_posterStep recorded taken, status⟩

/-- A step after which every confirmed row was there before. -/
theorem World.ConfirmedExecuted.of_rows
    {config : SystemConfig}
    {world next : World}
    {event : PosterEvent}
    (executed : world.ConfirmedExecuted)
    (taken : Bam.posterStep config world event = some next)
    (batches :
      ∀ key batch,
        next.store.batch? key = some batch →
        batch.status = .confirmed →
        world.store.batch? key = some batch)
    (messages :
      ∀ key row,
        next.store.message? key = some row →
        row.status = .confirmed →
        world.store.message? key = some row) :
    next.ConfirmedExecuted where
  batches := by
    intro key batch found confirmed
    exact (executed.batches key batch (batches key batch found confirmed)
      confirmed).posterStep taken
  messages := by
    intro key row found confirmed
    obtain ⟨txHash, attached, ofTx⟩ :=
      executed.messages key row (messages key row found confirmed)
        confirmed
    exact ⟨txHash, attached, ofTx.posterStep taken⟩

/-- A confirm transaction writes rows of the broadcast it records. -/
theorem confirmedExecuted_confirmed
    {config : SystemConfig}
    {world next : World}
    {event : PosterEvent}
    {broadcast : Broadcast}
    {receipt : TransactionReceipt}
    {submittedAt : Int}
    (executed : world.ConfirmedExecuted)
    (taken : posterStep config world event = some next)
    (committed :
      confirmIncluded config.keccak256 config.loop world.store
        (World.outcomeOf config broadcast receipt) submittedAt =
          .ok next.store)
    (ofBroadcast : next.Executed broadcast.txHash) :
    next.ConfirmedExecuted where
  batches := by
    intro key batch found confirmed
    rcases batch?_confirmIncluded committed key with
      ⟨-, entry, -, ofKey⟩ | same
    · have sameKey := Store.key_of_batch? found
      rw [ofKey] at sameKey
      have ofTx : batch.txHash = broadcast.txHash :=
        congrArg (fun other : BatchKey => other.2.1) sameKey
      exact ofTx ▸ ofBroadcast
    · rw [found, Option.map_some] at same
      obtain ⟨old, isOld, core⟩ := Option.map_eq_some_iff.mp same.symm
      have sameStatus : old.status = batch.status :=
        (congrArg BatchRow.status core :)
      have sameTx : old.txHash = batch.txHash :=
        (congrArg BatchRow.txHash core :)
      exact sameTx ▸ (executed.batches key old isOld
        (sameStatus.trans confirmed)).posterStep taken
  messages := by
    intro key row found confirmed
    rcases message?_confirmEntries committed key with
      same | ⟨entry, -, message, -, position, messageId, old, -, -, -, -,
        isRow⟩
    · obtain ⟨txHash, attached, ofTx⟩ :=
        executed.messages key row (same ▸ found) confirmed
      exact ⟨txHash, attached, ofTx.posterStep taken⟩
    · rw [isRow, Option.some.injEq] at found
      subst found
      exact ⟨broadcast.txHash, rfl, ofBroadcast⟩

/-- A phase a broadcast moves to without its confirm transaction succeeds when
the receipts that arrive do. -/
theorem succeeds_of_leads
    {event : PosterEvent}
    {before after : BroadcastPhase}
    (leads : before.Leads after)
    (arrived :
      ∀ receipt, after = .included receipt →
        ∃ txHash, event = .tickReceipt txHash (.ok receipt))
    (allowed : receiptsAllow event = true) :
    after.Succeeds := by
  cases leads with
  | included receipt =>
      obtain ⟨txHash, rfl⟩ := arrived receipt rfl
      exact allowed
  | abandonedAwaiting =>
      trivial
  | abandonedIncluded receipt =>
      trivial

/-- The broadcasts after one was stored. -/
theorem succeeds_put
    {world : World}
    {broadcast : Broadcast}
    (receipts :
      ∀ other ∈ world.broadcasts.rows, other.phase.Succeeds)
    (succeeds : broadcast.phase.Succeeds) :
    ∀ other ∈ (world.broadcasts.put broadcast).rows,
      other.phase.Succeeds := by
  intro other member
  rcases Table.mem_put.mp member with rfl | ⟨member, -⟩
  · exact succeeds
  · exact receipts other member

theorem receipted_posterStep
    {config : SystemConfig}
    {world next : World}
    {event : PosterEvent}
    (receipted : world.Receipted)
    (allowed : receiptsAllow event = true)
    (taken : posterStep config world event = some next) :
    next.Receipted := by
  have unwritten :
      next.store = world.store → next.ConfirmedExecuted := by
    intro same
    refine receipted.toConfirmedExecuted.of_rows taken ?_ ?_
    · intro key batch found _
      exact same ▸ found
    · intro key row found _
      exact same ▸ found
  cases posterStep_cases taken with
  | quiet same broadcasts =>
      exact ⟨unwritten same.store, broadcasts ▸ receipted.receipts⟩
  | ingested raw withinRateLimit now =>
      refine ⟨receipted.toConfirmedExecuted.of_rows taken ?_ ?_, ?_⟩
      · intro key batch found _
        rw [Store.batch?, batches_ingest] at found
        exact found
      · intro key row found confirmed
        rcases message?_ingest config world raw withinRateLimit now key
          with same | ⟨decoded, seq, -, -, -, isRow, -⟩
        · exact same ▸ found
        · rw [isRow, Option.some.injEq] at found
          subst found
          cases confirmed
      · exact receipted.receipts
  | prepared read ticked nonempty same broadcasts =>
      exact ⟨unwritten same.store, broadcasts ▸ receipted.receipts⟩
  | sent found isSent fresh unconfirmed same broadcasts =>
      refine ⟨unwritten same.store, ?_⟩
      rw [broadcasts]
      refine succeeds_put receipted.receipts ?_
      rcases unconfirmed with rfl | rfl <;> trivial
  | phased found leads arrived same broadcasts =>
      refine ⟨unwritten same.store, ?_⟩
      rw [broadcasts]
      exact succeeds_put receipted.receipts
        (succeeds_of_leads leads arrived allowed)
  | @confirmed broadcast receipt _ _ found included committed =>
      have status : receipt.status = true := by
        have succeeds :=
          receipted.receipts broadcast (Table.mem_of_get? found)
        rw [included] at succeeds
        exact succeeds
      refine ⟨confirmedExecuted_confirmed receipted.toConfirmedExecuted
        taken committed ?_, succeeds_put receipted.receipts status⟩
      exact ⟨receipt, ⟨_, Table.get?_put_self _ _, rfl⟩, status⟩
  | restarted =>
      refine ⟨unwritten rfl, ?_⟩
      intro broadcast member
      obtain ⟨old, isOld, rfl⟩ := mem_broadcasts_restart.mp member
      split
      · trivial
      · exact receipted.receipts old isOld
  | watched stepped =>
      rcases watchStep_store stepped with
        ⟨same, -⟩ | ⟨judgement, invalidatedAt, ingestedAt, onChain, -, -,
          reorged, -⟩
      · exact ⟨unwritten same, receipted.receipts⟩
      · refine ⟨receipted.toConfirmedExecuted.of_rows taken ?_ ?_,
          receipted.receipts⟩
        · intro key batch found confirmed
          rw [batch?_reorgBatch reorged key] at found
          obtain ⟨old, isOld, isBatch⟩ := Option.map_eq_some_iff.mp found
          split at isBatch
          · subst isBatch
            cases confirmed
          · exact isBatch ▸ isOld
        · intro key row found confirmed
          exact message?_of_confirmed_reorgBatch reorged found confirmed
  | chained canonical =>
      exact ⟨unwritten rfl, receipted.receipts⟩

/-- In a run whose receipts are all of executed transactions, confirmed rows
name executed transactions. -/
theorem confirmedExecuted_of_receipts
    {config : SystemConfig}
    {events : List PosterEvent}
    (allowed :
      Runs.AllSteps (posterStep config)
        (fun _ event => receiptsAllow event = true)
        World.initial events) :
    Runs.AllStates (posterStep config) World.ConfirmedExecuted
      World.initial events := by
  apply Runs.AllStates.mono fun world => World.Receipted.toConfirmedExecuted
  exact Runs.allStates_of_invariant receipted_posterStep
    receipted_initial allowed

/-- The request for a message of sender 7. -/
def sampleRequest
    (contentTag : Bytes32)
    (nonce : Nat)
    (contents : Bytes) : PosterEvent :=
  .ingest {
      byteLength := 200
      fields := some {
        contentTag := contentTag
        sender := 7
        nonce := nonce
        contents := contents
        signature := List.replicate 65 1 } } true 0

/-- One message from its request to its confirm transaction. -/
def confirmedRun (receipt : TransactionReceipt) : List PosterEvent :=
  [sampleRequest 5 0 [3], .tickStart 0, .tickSend 0 (.accepted 1),
    .tickReceipt 1 (.ok receipt), .tickConfirm 1 0]

/-- The message of an executed transaction. -/
theorem confirmedExecuted_of_success :
    Runs.AllStates (posterStep sampleConfig) World.ConfirmedExecuted
      World.initial
      (confirmedRun
        { status := true, blockNumber := 100, transactionIndex := 0 }) :=
  confirmedExecuted_of_receipts (by
    rw [posterStep_eq_planStep rfl rfl]
    decide +kernel)

/-- The message of a reverted transaction is confirmed. -/
theorem reverted_transaction_confirmed :
    ¬ Runs.AllStates (posterStep sampleConfig) World.ConfirmedExecuted
      World.initial
      (confirmedRun
        { status := false
          blockNumber := 100
          transactionIndex := 0 }) := by
  intro all
  rw [posterStep_eq_planStep rfl rfl] at all
  have view :
      (Runs.exec? (planStep sampleConfig) World.initial
        (confirmedRun
          { status := false
            blockNumber := 100
            transactionIndex := 0 })).map
          (fun world =>
            ((world.store.message? (7, 0)).map fun row =>
                (row.status, row.batchRef),
              (world.broadcasts.get? 1).map Broadcast.phase)) =
        some (some (.confirmed, some 1),
          some (.recorded {
            status := false
            blockNumber := 100
            transactionIndex := 0 })) := by
    decide +kernel
  obtain ⟨final, executed, isView⟩ := Option.map_eq_some_iff.mp view
  obtain ⟨rowView, phaseView⟩ := Prod.mk.inj isView
  obtain ⟨row, found, facts⟩ := Option.map_eq_some_iff.mp rowView
  obtain ⟨confirmed, attached⟩ := Prod.mk.inj facts
  obtain ⟨txHash, ofRow, receipt, ⟨broadcast, isSent, recorded⟩, status⟩ :=
    (all.final executed).messages (7, 0) row found confirmed
  rw [attached, Option.some.injEq] at ofRow
  subst ofRow
  rw [isSent, Option.map_some, Option.some.injEq, recorded] at phaseView
  cases phaseView
  cases status

end Bam
