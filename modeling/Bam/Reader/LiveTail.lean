import Bam.Reader.Convergence
import Bam.Reader.Loop

namespace Bam

/-!
# The live tail

One tick scans from the cursor to the safe head, processes the events block by
block, and moves the cursor behind every block whose events were all read.
Whatever heads, failures and parks a run of ticks meets, no event at or below
the cursor is left out.
-/

/-- What the services behind a tick answer. -/
structure TickAnswers where
  getBlockNumber : Option Nat
  cursorRead : Bool
  getLogs : LogScanClient
  /-- The timestamp of a block; `none` where the call throws. -/
  getBlockHeader : Nat → Option Nat
  event : Nat → BlobBatchRegisteredEvent → EventAnswers
  commit : Nat → StoreFate
  now : Nat → Int
  watch : WatchAnswers

structure TickResult where
  fromBlock : Nat
  toBlock : Int
  scanned : Nat
  processed : Nat
  reorgedCount : Nat
  keptCount : Nat
  deriving Repr, DecidableEq

/-- What the loop over the blocks of a tick accumulates. -/
structure LoopTally where
  processed : Nat
  lastCommittedBlock : Option Nat
  blockedByTransient : Bool
  deriving Repr, DecidableEq

def LoopTally.start : LoopTally where
  processed := 0
  lastCommittedBlock := none
  blockedByTransient := false

/-- Put the counters back to what they were before a parked block. -/
def restoreCounters
    (counters : ReaderCounters) : ReaderAttempt Unit :=
  fun state => ({ state with counters }, .ok ())

/-- The end of the pass over a block: park, or commit the cursor. -/
def settleBlock
    (config : ReaderConfig)
    (answers : TickAnswers)
    (before : ReaderCounters)
    (tally : LoopTally)
    (blockNumber : Nat)
    (block : BlockTally) : ReaderAttempt LoopTally :=
  if block.unreachable ≠ 0 then
    (restoreCounters before).andThen fun _ =>
      Attempt.done { tally with blockedByTransient := true }
  else
    (commitBlock config blockNumber block.maxTxIndex
      (answers.now blockNumber) (answers.commit blockNumber)).andThen
      fun _ =>
        Attempt.done {
          tally with
          processed := block.processed
          lastCommittedBlock := some blockNumber }

/-- The body of the loop over the blocks. -/
def liveTailBlock
    (config : ReaderConfig)
    (answers : TickAnswers)
    (tally : LoopTally)
    (group : Nat × List BlobBatchRegisteredEvent) :
    ReaderAttempt LoopTally :=
  if tally.blockedByTransient then Attempt.done tally
  else
    (Attempt.ofOption .rpc (answers.getBlockHeader group.1)).andThen
      fun timestampUnixSec =>
        Attempt.reading ReaderState.counters fun counters =>
          (processEvents config timestampUnixSec answers.event
            { maxTxIndex := 0
              processed := tally.processed
              unreachable := 0 } group.2).andThen
            (settleBlock config answers counters tally group.1)

/-- `allEventsCommitted`. -/
def LoopTally.allEventsCommitted
    (tally : LoopTally)
    (groups : List (Nat × List BlobBatchRegisteredEvent)) : Bool :=
  !tally.blockedByTransient &&
    (groups.isEmpty ||
      tally.lastCommittedBlock = groups.getLast?.map Prod.fst)

/-- The last committed block lies before the end of the range. -/
def LoopTally.endsBefore
    (tally : LoopTally)
    (toBlock : Nat) : Bool :=
  match tally.lastCommittedBlock with
  | none => true
  | some blockNumber => blockNumber < toBlock

/-- The catch-up step. -/
def catchUp
    (config : ReaderConfig)
    (answers : TickAnswers)
    (toBlock : Nat)
    (groups : List (Nat × List BlobBatchRegisteredEvent))
    (tally : LoopTally) : ReaderAttempt Unit :=
  if tally.allEventsCommitted groups && tally.endsBefore toBlock then
    commitBlock config toBlock 0 (answers.now toBlock)
      (answers.commit toBlock)
  else Attempt.done ()

/-- The first block a tick scans. -/
def scanFrom
    (config : ReaderConfig)
    (state : ReaderState) : Nat :=
  match state.cursor config with
  | some cursor => cursor.lastBlockNumber + 1
  | none => config.startBlock

/-- The tick over a range that is not empty. -/
def liveTailRange
    (config : ReaderConfig)
    (answers : TickAnswers)
    (fromBlock toBlock : Nat) : ReaderAttempt TickResult :=
  (Attempt.ofExcept
    ((scanLogs answers.getLogs (some config.logScanChunkBlocks) fromBlock
      toBlock).mapError LoopError.scan)).andThen fun events =>
    (Attempt.fold (liveTailBlock config answers) LoopTally.start
      (groupByBlock events)).andThen fun tally =>
      (catchUp config answers toBlock (groupByBlock events) tally).andThen
        fun _ =>
          (readerReorgTick config answers.watch).andThen fun watch =>
            Attempt.done {
              fromBlock := fromBlock
              toBlock := toBlock
              scanned := events.length
              processed := tally.processed
              reorgedCount := watch.reorgedCount
              keptCount := watch.keptCount }

/-- The tick once the head and the cursor are known. -/
def liveTailFrom
    (config : ReaderConfig)
    (answers : TickAnswers)
    (head fromBlock : Nat) : ReaderAttempt TickResult :=
  let toBlock : Int := (head : Int) - config.reorgWindowBlocks
  if toBlock < fromBlock then
    Attempt.done ⟨fromBlock, toBlock, 0, 0, 0, 0⟩
  else liveTailRange config answers fromBlock toBlock.toNat

/-- `liveTailTick`. -/
def liveTailTick
    (config : ReaderConfig)
    (answers : TickAnswers) : ReaderAttempt TickResult :=
  (Attempt.ofOption .rpc answers.getBlockNumber).andThen fun head =>
    if answers.cursorRead then
      Attempt.reading (scanFrom config) (liveTailFrom config answers head)
    else Attempt.fail .store

/-- An event was processed and its blob was reached. -/
def ReaderState.Read
    (state : ReaderState)
    (event : BlobBatchRegisteredEvent) : Prop :=
  ∃ call ∈ state.processed,
    call.opts.event = event ∧ call.outcome ≠ .unreachable

/-- A registered batch was processed and its blob was reached. -/
def ReaderState.Done
    (state : ReaderState)
    (batch : ScannerBatchLog) : Prop :=
  ∃ event, batch.ReadAs event ∧ state.Read event

section Coverage

variable (config : ReaderConfig)
variable (onChain : ScannerLog → Prop)

/-- No registered batch from the start block on and below a limit is left
out. -/
def CoveredBelow
    (state : ReaderState)
    (limit : Nat) : Prop :=
  ∀ batch,
    Registered onChain config.contentTags batch →
    config.startBlock ≤ batch.blockNumber →
    batch.blockNumber < limit →
    state.Done batch

/-- No registered batch from the start block up to the cursor is left out. -/
def Complete
    (state : ReaderState) : Prop :=
  ∀ cursor, state.cursor config = some cursor →
    ∀ batch,
      Registered onChain config.contentTags batch →
      config.startBlock ≤ batch.blockNumber →
      batch.blockNumber ≤ cursor.lastBlockNumber →
      state.Done batch

/-- The cursor of the second state is not behind that of the first. -/
def CursorKept
    (before after : ReaderState) : Prop :=
  ∀ cursor, before.cursor config = some cursor →
    ∃ later,
      after.cursor config = some later ∧
        cursor.lastBlockNumber ≤ later.lastBlockNumber

/-- What holds wherever a tick that began in `start` is cut. -/
structure Sound
    (start state : ReaderState) : Prop where
  covered : CoveredBelow config onChain state (scanFrom config state)
  kept : CursorKept config start state

end Coverage

section Grown

/-- A state that has processed more and moved no cursor. -/
structure ReaderState.Grown
    (before after : ReaderState) : Prop where
  cursors : after.cursors = before.cursors
  processed : ∀ call ∈ before.processed, call ∈ after.processed

theorem ReaderState.Grown.refl
    (state : ReaderState) : state.Grown state :=
  ⟨rfl, fun _ member => member⟩

theorem ReaderState.Grown.trans
    {before middle after : ReaderState}
    (first : before.Grown middle)
    (second : middle.Grown after) : before.Grown after :=
  ⟨second.cursors.trans first.cursors,
    fun call member =>
      second.processed call (first.processed call member)⟩

variable {config : ReaderConfig}
variable {onChain : ScannerLog → Prop}
variable {before after : ReaderState}

theorem ReaderState.Read.grown
    {event : BlobBatchRegisteredEvent}
    (isRead : before.Read event)
    (grown : before.Grown after) : after.Read event := by
  obtain ⟨call, member, isEvent, reached⟩ := isRead
  exact ⟨call, grown.processed call member, isEvent, reached⟩

theorem CoveredBelow.grown
    {limit : Nat}
    (covered : CoveredBelow config onChain before limit)
    (grown : before.Grown after) :
    CoveredBelow config onChain after limit := by
  intro batch registered lower upper
  obtain ⟨event, isRead, reached⟩ := covered batch registered lower upper
  exact ⟨event, isRead, reached.grown grown⟩

theorem ReaderState.Grown.scanFrom
    (grown : before.Grown after) :
    scanFrom config after = scanFrom config before := by
  unfold Bam.scanFrom ReaderState.cursor
  rw [grown.cursors]

theorem Sound.grown
    {start : ReaderState}
    (sound : Sound config onChain start before)
    (grown : before.Grown after) :
    Sound config onChain start after := by
  constructor
  · rw [grown.scanFrom]
    exact sound.covered.grown grown
  · unfold CursorKept ReaderState.cursor at *
    rw [grown.cursors]
    exact sound.kept

end Grown

/-- What one call of `processBatch` does to the state of a Reader. -/
theorem ensures_processEvent
    (config : ReaderConfig)
    (event : BlobBatchRegisteredEvent)
    (timestampUnixSec : Nat)
    (answers : EventAnswers)
    (before : ReaderState) :
    Attempt.Ensures (· = before)
      (processEvent config event timestampUnixSec answers)
      (fun result after =>
        before.Grown after ∧
          (result.outcome ≠ .unreachable → after.Read event) ∧
          (result.outcome = .unreachable → answers.fetchBlob = none))
      before.Grown := by
  rintro state rfl
  rcases processEvent_cases config event timestampUnixSec answers state with
    ⟨counters, error, failed⟩ |
      ⟨counters, store, result, executed, counted, returned | failed⟩
  · rw [failed]
    exact ⟨rfl, fun _ member => member⟩
  · rw [returned]
    exact ⟨⟨rfl, fun _ member => List.mem_cons_of_mem _ member⟩,
      fun reached => ⟨_, List.mem_cons_self, rfl, reached⟩,
      fetchBlob_of_unreachable executed⟩
  · rw [failed]
    exact ⟨rfl, fun _ member => member⟩

/-- What the loop over the events of a block does: a pass that meets no
unreachable blob has read every event. -/
theorem ensures_processEvents
    (config : ReaderConfig)
    (timestampUnixSec : Nat)
    (answers : Nat → BlobBatchRegisteredEvent → EventAnswers)
    (tally : BlockTally)
    (events : List BlobBatchRegisteredEvent)
    (before : ReaderState) :
    Attempt.Ensures (· = before)
      (processEvents config timestampUnixSec answers tally events)
      (fun block after =>
        before.Grown after ∧
          (block.unreachable = 0 → ∀ event ∈ events, after.Read event))
      before.Grown := by
  unfold processEvents
  refine (Attempt.ensures_fold
    (fun rest block after =>
      before.Grown after ∧
        (block.unreachable = 0 →
          ∀ event ∈ events, event ∈ rest ∨ after.Read event))
    (fun event rest block _ => ?_) tally).mono ?_ ?_
      fun _ grown => grown
  · refine Attempt.ensures_of_each fun state holds => ?_
    refine Attempt.ensures_andThen _
      ((ensures_processEvent config event timestampUnixSec
        (answers block.processed event) state).mono
          (fun _ same => same) (fun _ _ result => result)
          fun _ grown => holds.1.trans grown)
      fun result => Attempt.ensures_done fun after happened => ?_
    refine ⟨holds.1.trans happened.1, fun none other member => ?_⟩
    simp only at none
    split at none
    · cases none
    · rename_i reached
      rcases holds.2 none other member with isLeft | isRead
      · rcases List.mem_cons.mp isLeft with rfl | isLater
        · exact .inr (happened.2.1 reached)
        · exact .inl isLater
      · exact .inr (isRead.grown happened.1)
  · rintro state rfl
    exact ⟨.refl state, fun _ event member => .inl member⟩
  · rintro block after ⟨grown, reads⟩
    refine ⟨grown, fun none event member => ?_⟩
    rcases reads none event member with contradictory | isRead
    · cases contradictory
    · exact isRead

section Tick

variable {config : ReaderConfig}
variable {onChain : ScannerLog → Prop}
variable {start : ReaderState}

/-- The cursor is not past a block. -/
def Behind
    (config : ReaderConfig)
    (state : ReaderState)
    (blockNumber : Nat) : Prop :=
  ∀ cursor, state.cursor config = some cursor →
    cursor.lastBlockNumber ≤ blockNumber

/-- A state whose cursor has moved to a block, with the same calls behind
it. -/
structure Committed
    (config : ReaderConfig)
    (before after : ReaderState)
    (blockNumber : Nat) : Prop where
  processed : after.processed = before.processed
  cursor :
    ∃ row, after.cursor config = some row ∧
      row.lastBlockNumber = blockNumber

theorem Committed.read
    {before after : ReaderState}
    {blockNumber : Nat}
    (committed : Committed config before after blockNumber)
    {event : BlobBatchRegisteredEvent}
    (isRead : before.Read event) : after.Read event := by
  unfold ReaderState.Read
  rw [committed.processed]
  exact isRead

theorem CoveredBelow.committed
    {before after : ReaderState}
    {blockNumber limit : Nat}
    (covered : CoveredBelow config onChain before limit)
    (committed : Committed config before after blockNumber) :
    CoveredBelow config onChain after limit := by
  intro batch registered lower upper
  obtain ⟨event, readAs, isRead⟩ := covered batch registered lower upper
  exact ⟨event, readAs, committed.read isRead⟩

/-- Committing a block below which nothing is left out keeps a state sound. -/
theorem Sound.committed
    {before after : ReaderState}
    {blockNumber : Nat}
    (sound : Sound config onChain start before)
    (covered : CoveredBelow config onChain before (blockNumber + 1))
    (behind : Behind config before blockNumber)
    (committed : Committed config before after blockNumber) :
    Sound config onChain start after := by
  obtain ⟨row, found, isBlock⟩ := committed.cursor
  constructor
  · have isNext : scanFrom config after = blockNumber + 1 := by
      unfold scanFrom
      rw [found]
      exact congrArg (· + 1) isBlock
    rw [isNext]
    exact covered.committed committed
  · intro cursor isCursor
    obtain ⟨between, isBetween, kept⟩ := sound.kept cursor isCursor
    exact ⟨row, found,
      isBlock ▸ kept.trans (behind between isBetween)⟩

theorem ensures_commitBlock
    {before : ReaderState}
    {blockNumber : Nat}
    (sound : Sound config onChain start before)
    (covered : CoveredBelow config onChain before (blockNumber + 1))
    (behind : Behind config before blockNumber)
    (lastTxIndex : Nat)
    (now : Int)
    (fate : StoreFate) :
    Attempt.Ensures (· = before)
      (commitBlock config blockNumber lastTxIndex now fate)
      (fun _ after =>
        Sound config onChain start after ∧
          Committed config before after blockNumber)
      (Sound config onChain start) := by
  rintro state rfl
  have committed :
      Committed config state
        { state with
          cursors := state.cursors.put {
            chainId := config.chainId
            lastBlockNumber := blockNumber
            lastTxIndex := lastTxIndex
            updatedAt := now } } blockNumber :=
    { processed := rfl
      cursor := ⟨_, Table.get?_put_self _ _, rfl⟩ }
  have isSound := sound.committed covered behind committed
  cases fate with
  | commits =>
      exact ⟨isSound, committed⟩
  | rollsBack =>
      exact sound
  | unacknowledged =>
      exact isSound

variable {events : List BlobBatchRegisteredEvent}
variable {fromBlock toBlock : Nat}

/-- What the loop over the blocks keeps while the groups in `rest` are
left. -/
structure LoopInvariant
    (config : ReaderConfig)
    (onChain : ScannerLog → Prop)
    (start : ReaderState)
    (events : List BlobBatchRegisteredEvent)
    (fromBlock toBlock : Nat)
    (rest : List (Nat × List BlobBatchRegisteredEvent))
    (tally : LoopTally)
    (state : ReaderState) : Prop where
  sound : Sound config onChain start state
  covered : CoveredBelow config onChain state fromBlock
  read :
    tally.blockedByTransient = false →
    ∀ event ∈ events,
      event.blockNumber ∉ rest.map Prod.fst → state.Read event
  behind :
    tally.blockedByTransient = false →
    ∀ blockNumber ∈ rest.map Prod.fst,
      Behind config state blockNumber
  bounded : Behind config state toBlock

/-- Reading the events of a range up to a block covers it. -/
theorem coveredBelow_of_read
    (scanned :
      Scanned onChain config.contentTags fromBlock toBlock events)
    {state : ReaderState}
    (covered : CoveredBelow config onChain state fromBlock)
    {blockNumber : Nat}
    (upTo : blockNumber ≤ toBlock)
    (reads : ∀ event ∈ events,
      event.blockNumber ≤ blockNumber → state.Read event) :
    CoveredBelow config onChain state (blockNumber + 1) := by
  intro batch registered lower upper
  by_cases old : batch.blockNumber < fromBlock
  · exact covered batch registered lower old
  · obtain ⟨event, member, readAs⟩ :=
      scanned.complete batch registered (Nat.le_of_not_lt old)
        ((Nat.le_of_lt_succ upper).trans upTo)
    exact ⟨event, readAs, reads event member
      (readAs.blockNumber ▸ Nat.le_of_lt_succ upper)⟩

theorem Behind.grown
    {before after : ReaderState}
    {blockNumber : Nat}
    (behind : Behind config before blockNumber)
    (grown : before.Grown after) : Behind config after blockNumber := by
  unfold Behind ReaderState.cursor at *
  rw [grown.cursors]
  exact behind

/-- Processing more keeps the loop invariant. -/
theorem LoopInvariant.grown
    {rest : List (Nat × List BlobBatchRegisteredEvent)}
    {tally : LoopTally}
    {before after : ReaderState}
    (holds :
      LoopInvariant config onChain start events fromBlock toBlock rest
        tally before)
    (grown : before.Grown after) :
    LoopInvariant config onChain start events fromBlock toBlock rest tally
      after where
  sound := holds.sound.grown grown
  covered := holds.covered.grown grown
  read open_ event member outside :=
    (holds.read open_ event member outside).grown grown
  behind open_ blockNumber member :=
    (holds.behind open_ blockNumber member).grown grown
  bounded := holds.bounded.grown grown

/-- A parked loop owes its remaining blocks nothing. -/
theorem LoopInvariant.park
    {rest others : List (Nat × List BlobBatchRegisteredEvent)}
    {tally parked : LoopTally}
    {state : ReaderState}
    (holds :
      LoopInvariant config onChain start events fromBlock toBlock rest
        tally state)
    (isParked : parked.blockedByTransient = true) :
    LoopInvariant config onChain start events fromBlock toBlock others
      parked state where
  sound := holds.sound
  covered := holds.covered
  read contradictory := by
    rw [isParked] at contradictory
    cases contradictory
  behind contradictory := by
    rw [isParked] at contradictory
    cases contradictory
  bounded := holds.bounded

section Block

variable {group : Nat × List BlobBatchRegisteredEvent}
variable {rest : List (Nat × List BlobBatchRegisteredEvent)}
variable {tally : LoopTally}

/-- The blocks left behind a group are later ones. -/
theorem lt_of_suffix
    (suffix : group :: rest <:+ groupByBlock events)
    {blockNumber : Nat}
    (later : blockNumber ∈ rest.map Prod.fst) :
    group.1 < blockNumber := by
  have ascending :=
    (groupByBlock_ascending events).sublist (suffix.sublist.map Prod.fst)
  rw [List.map_cons, List.pairwise_cons] at ascending
  exact ascending.1 blockNumber later

/-- A pass that has read the events of its block has read all events up to
it. -/
theorem LoopInvariant.reads
    {state : ReaderState}
    (holds :
      LoopInvariant config onChain start events fromBlock toBlock
        (group :: rest) tally state)
    (unblocked : tally.blockedByTransient = false)
    (suffix : group :: rest <:+ groupByBlock events)
    (reads : ∀ event ∈ group.2, state.Read event)
    {event : BlobBatchRegisteredEvent}
    (member : event ∈ events)
    (outside : event.blockNumber ∉ rest.map Prod.fst) :
    state.Read event := by
  have isGroup : group ∈ groupByBlock events :=
    suffix.subset List.mem_cons_self
  by_cases ofGroup : event.blockNumber = group.1
  · exact reads event ((mem_group_iff isGroup event).mpr ⟨member, ofGroup⟩)
  · refine holds.read unblocked event member fun inGroups => ?_
    rcases List.mem_cons.mp inGroups with isFirst | isLater
    · exact ofGroup isFirst
    · exact outside isLater

/-- The end of a pass keeps the invariant for the blocks that are left. -/
theorem ensures_settleBlock
    (scanned :
      Scanned onChain config.contentTags fromBlock toBlock events)
    (suffix : group :: rest <:+ groupByBlock events)
    (unblocked : tally.blockedByTransient = false)
    (answers : TickAnswers)
    (counters : ReaderCounters)
    (block : BlockTally)
    {before : ReaderState}
    (holds :
      LoopInvariant config onChain start events fromBlock toBlock
        (group :: rest) tally before)
    (reads :
      block.unreachable = 0 → ∀ event ∈ group.2, before.Read event) :
    Attempt.Ensures (· = before)
      (settleBlock config answers counters tally group.1 block)
      (LoopInvariant config onChain start events fromBlock toBlock rest)
      (Sound config onChain start) := by
  unfold settleBlock
  split
  · refine Attempt.ensures_andThen
      (fun _ after => before.Grown after) ?_ fun _ => ?_
    · rintro state rfl
      exact ⟨rfl, fun _ member => member⟩
    · exact Attempt.ensures_done fun after grown =>
        (holds.grown grown).park rfl
  · rename_i isRead
    have allRead :
        ∀ other ∈ events,
          other.blockNumber ∉ rest.map Prod.fst → before.Read other :=
      fun other isOther outside =>
        holds.reads unblocked suffix
          (reads (Decidable.not_not.mp isRead)) isOther outside
    have isGroup : group ∈ groupByBlock events :=
      suffix.subset List.mem_cons_self
    obtain ⟨event, member, ofGroup⟩ :=
      (mem_groupByBlock_iff group.1).mp (List.mem_map_of_mem isGroup)
    have upTo : group.1 ≤ toBlock :=
      ofGroup ▸ (scanned.within event member).2
    have covered :=
      coveredBelow_of_read scanned holds.covered upTo
        fun other isOther below =>
          allRead other isOther fun isLater =>
            Nat.not_lt.mpr below (lt_of_suffix suffix isLater)
    refine Attempt.ensures_andThen _
      (ensures_commitBlock holds.sound covered
        (holds.behind unblocked group.1
          (List.mem_map_of_mem List.mem_cons_self)) _ _ _)
      fun _ => Attempt.ensures_done fun after committed => ?_
    obtain ⟨sound, isCommitted⟩ := committed
    obtain ⟨row, found, isBlock⟩ := isCommitted.cursor
    have atBlock :
        ∀ cursor, after.cursor config = some cursor →
          cursor.lastBlockNumber = group.1 := by
      intro cursor isCursor
      rw [found] at isCursor
      cases isCursor
      exact isBlock
    exact {
      sound := sound
      covered := holds.covered.committed isCommitted
      read := fun _ other isOther outside =>
        isCommitted.read (allRead other isOther outside)
      behind := fun _ blockNumber isLater cursor isCursor =>
        atBlock cursor isCursor ▸
          Nat.le_of_lt (lt_of_suffix suffix isLater)
      bounded := fun cursor isCursor =>
        atBlock cursor isCursor ▸ upTo }

/-- One pass of the loop over the blocks. -/
theorem ensures_liveTailBlock
    (scanned :
      Scanned onChain config.contentTags fromBlock toBlock events)
    (suffix : group :: rest <:+ groupByBlock events)
    (answers : TickAnswers) :
    Attempt.Ensures
      (LoopInvariant config onChain start events fromBlock toBlock
        (group :: rest) tally)
      (liveTailBlock config answers tally group)
      (LoopInvariant config onChain start events fromBlock toBlock rest)
      (Sound config onChain start) := by
  unfold liveTailBlock
  split
  · rename_i isParked
    exact Attempt.ensures_done fun state holds => holds.park isParked
  · rename_i isOpen
    have unblocked : tally.blockedByTransient = false :=
      Bool.eq_false_iff.mpr isOpen
    refine Attempt.ensures_andThen _
      (Attempt.ensures_ofOption (fun _ holds => holds.sound)
        fun _ _ _ holds => holds) fun timestampUnixSec => ?_
    refine Attempt.ensures_reading fun before holds => ?_
    refine Attempt.ensures_andThen _
      ((ensures_processEvents config timestampUnixSec answers.event _
        group.2 before).mono (fun _ same => same)
          (fun _ _ result => result)
          fun _ grown => holds.sound.grown grown) fun block => ?_
    refine Attempt.ensures_of_each fun after passed => ?_
    exact ensures_settleBlock scanned suffix unblocked answers _ block
      (holds.grown passed.1) passed.2

end Block

theorem ensures_markDropped
    (config : ReaderConfig)
    (batch : BatchRow)
    (now : Int)
    (fate : StoreFate)
    (counted : WatchResult)
    (before : ReaderState) :
    Attempt.Ensures before.Grown
      (markDropped config batch now fate counted)
      (fun _ => before.Grown) before.Grown := by
  intro state grown
  unfold markDropped
  cases readerReorgBatch config.chainId state.store batch now with
  | error error =>
      exact grown
  | ok store =>
      cases fate with
      | commits =>
          exact ⟨grown.cursors, grown.processed⟩
      | rollsBack =>
          exact grown
      | unacknowledged =>
          exact ⟨grown.cursors, grown.processed⟩

/-- The watcher moves no cursor and forgets no call. -/
theorem ensures_readerReorgTick
    (config : ReaderConfig)
    (answers : WatchAnswers)
    (before : ReaderState) :
    Attempt.Ensures before.Grown (readerReorgTick config answers)
      (fun _ => before.Grown) before.Grown := by
  have answered :
      ∀ (Answer : Type) (answer : Option Answer),
        Attempt.Ensures before.Grown
          (Attempt.ofOption LoopError.rpc answer)
          (fun _ => before.Grown) before.Grown :=
    fun _ _ =>
      Attempt.ensures_ofOption (fun _ grown => grown)
        fun _ _ _ grown => grown
  refine Attempt.ensures_andThen (fun _ => before.Grown)
    (answered _ _) fun head => ?_
  split
  · refine Attempt.ensures_reading fun start grown => ?_
    refine (Attempt.ensures_fold (fun _ _ => before.Grown)
      (fun batch rest tally _ => ?_) _).mono
        (fun state same => same ▸ grown) (fun _ _ grown => grown)
        fun _ grown => grown
    refine Attempt.ensures_andThen (fun _ => before.Grown)
      (answered _ _) fun current => ?_
    cases current with
    | some block =>
        exact Attempt.ensures_done fun _ grown => grown
    | none =>
        exact ensures_markDropped config batch _ _ _ before
  · exact Attempt.ensures_fail fun _ grown => grown

/-- The catch-up step keeps a state sound. -/
theorem ensures_catchUp
    (scanned :
      Scanned onChain config.contentTags fromBlock toBlock events)
    (answers : TickAnswers)
    (groups : List (Nat × List BlobBatchRegisteredEvent))
    (tally : LoopTally) :
    Attempt.Ensures
      (LoopInvariant config onChain start events fromBlock toBlock []
        tally)
      (catchUp config answers toBlock groups tally)
      (fun _ => Sound config onChain start)
      (Sound config onChain start) := by
  unfold catchUp
  split
  · rename_i due
    refine Attempt.ensures_of_each fun before holds => ?_
    simp only [LoopTally.allEventsCommitted, Bool.and_eq_true,
      Bool.not_eq_true'] at due
    refine (ensures_commitBlock holds.sound
      (coveredBelow_of_read scanned holds.covered (Nat.le_refl _)
        fun event member _ =>
          holds.read due.1.1 event member List.not_mem_nil)
      holds.bounded _ _ _).mono (fun _ same => same)
        (fun _ _ result => result.1) fun _ sound => sound
  · exact Attempt.ensures_done fun _ holds => holds.sound

/-- What a tick over a range that is not empty keeps. -/
theorem ensures_liveTailRange
    (answers : TickAnswers)
    {limit : Int}
    (scans : Scans onChain config.contentTags limit answers.getLogs)
    (covered : CoveredBelow config onChain start (scanFrom config start))
    (ordered : scanFrom config start ≤ toBlock)
    (below : (toBlock : Int) ≤ limit) :
    Attempt.Ensures (· = start)
      (liveTailRange config answers (scanFrom config start) toBlock)
      (fun _ => Sound config onChain start)
      (Sound config onChain start) := by
  have sound : Sound config onChain start start :=
    { covered := covered
      kept := fun cursor found => ⟨cursor, found, Nat.le_refl _⟩ }
  have behind :
      ∀ blockNumber, scanFrom config start ≤ blockNumber →
        Behind config start blockNumber := by
    intro blockNumber later cursor found
    unfold scanFrom at later
    rw [found] at later
    exact Nat.le_of_succ_le later
  unfold liveTailRange
  refine Attempt.ensures_andThen
    (fun events state =>
      state = start ∧
        Scanned onChain config.contentTags (scanFrom config start)
          toBlock events)
    (Attempt.ensures_ofExcept (fun _ same => same ▸ sound)
      fun events answered state same => ⟨same, ?_⟩) fun events => ?_
  · cases returned : scanLogs answers.getLogs
        (some config.logScanChunkBlocks) (scanFrom config start)
        toBlock with
    | error error =>
        rw [returned] at answered
        cases answered
    | ok found =>
        rw [returned] at answered
        cases answered
        exact scans _ _ _ _ ordered below returned
  · refine Attempt.ensures_of_each fun state isStart => ?_
    obtain ⟨rfl, scanned⟩ := isStart
    have initially :
        LoopInvariant config onChain state events
          (scanFrom config state) toBlock (groupByBlock events)
          LoopTally.start state :=
      { sound := sound
        covered := covered
        read := fun _ event member outside =>
          absurd ((mem_groupByBlock_iff event.blockNumber).mpr
            ⟨event, member, rfl⟩) outside
        behind := fun _ blockNumber member => by
          obtain ⟨event, isEvent, rfl⟩ :=
            (mem_groupByBlock_iff blockNumber).mp member
          exact behind _ (scanned.within event isEvent).1
        bounded := behind toBlock ordered }
    refine Attempt.ensures_andThen _
      ((Attempt.ensures_fold
        (LoopInvariant config onChain state events
          (scanFrom config state) toBlock)
        (fun group rest tally suffix =>
          ensures_liveTailBlock scanned suffix answers)
        LoopTally.start).mono
          (fun _ same => same ▸ initially) (fun _ _ holds => holds)
          fun _ sound => sound) fun tally => ?_
    refine Attempt.ensures_andThen _
      (ensures_catchUp scanned answers _ tally) fun _ => ?_
    refine Attempt.ensures_of_each fun caught isSound => ?_
    refine Attempt.ensures_andThen (fun _ => caught.Grown)
      ((ensures_readerReorgTick config answers.watch caught).mono
        (fun _ same => same ▸ .refl caught) (fun _ _ grown => grown)
        fun _ grown => isSound.grown grown) fun watch => ?_
    exact Attempt.ensures_done fun _ grown => isSound.grown grown

/-- What one tick keeps, wherever it is cut. -/
theorem ensures_liveTailTick
    (answers : TickAnswers)
    (scans :
      ∀ head, answers.getBlockNumber = some head →
        Scans onChain config.contentTags
          ((head : Int) - config.reorgWindowBlocks) answers.getLogs)
    (covered : CoveredBelow config onChain start (scanFrom config start)) :
    Attempt.Ensures (· = start) (liveTailTick config answers)
      (fun _ => Sound config onChain start)
      (Sound config onChain start) := by
  have sound : Sound config onChain start start :=
    { covered := covered
      kept := fun cursor found => ⟨cursor, found, Nat.le_refl _⟩ }
  unfold liveTailTick
  refine Attempt.ensures_andThen
    (fun head state => state = start ∧ answers.getBlockNumber = some head)
    (Attempt.ensures_ofOption (fun _ same => same ▸ sound)
      fun head isHead state same => ⟨same, isHead⟩) fun head => ?_
  split
  · refine Attempt.ensures_reading fun state isStart => ?_
    obtain ⟨rfl, isHead⟩ := isStart
    unfold liveTailFrom
    simp only
    split
    · exact Attempt.ensures_done fun _ same => same ▸ sound
    · rename_i within
      refine ensures_liveTailRange answers (scans head isHead) covered
        ?_ ?_ <;> omega
  · exact Attempt.ensures_fail fun _ isStart => isStart.1 ▸ sound

end Tick

/-- The state after a run of ticks. -/
def liveTailRun
    (config : ReaderConfig)
    (start : ReaderState)
    (ticks : List TickAnswers) : ReaderState :=
  ticks.foldl (fun state answers => (liveTailTick config answers state).1)
    start

/-- The provider answers a tick with the logs of the chain up to its safe
head. -/
def TickAnswers.Truthful
    (config : ReaderConfig)
    (onChain : ScannerLog → Prop)
    (answers : TickAnswers) : Prop :=
  ∀ head, answers.getBlockNumber = some head →
    Bam.Truthful onChain config.contentTags
      ((head : Int) - config.reorgWindowBlocks) answers.getLogs

/-- A run of ticks never leaves an event behind and never moves the cursor
back. -/
theorem sound_liveTailRun
    {config : ReaderConfig}
    {onChain : ScannerLog → Prop}
    {start : ReaderState}
    (covered : CoveredBelow config onChain start (scanFrom config start))
    {ticks : List TickAnswers}
    (truthful : ∀ answers ∈ ticks, answers.Truthful config onChain) :
    Sound config onChain start (liveTailRun config start ticks) := by
  induction ticks generalizing start with
  | nil =>
      exact {
        covered := covered
        kept := fun cursor found => ⟨cursor, found, Nat.le_refl _⟩ }
  | cons answers rest inductionHypothesis =>
      have ticked :
          Sound config onChain start (liveTailTick config answers start).1 :=
        (ensures_liveTailTick answers
          (fun head isHead =>
            (truthful answers List.mem_cons_self head isHead).scans)
          covered).leaves rfl
      have later :=
        inductionHypothesis ticked.covered fun other member =>
          truthful other (List.mem_cons_of_mem answers member)
      refine { covered := later.covered, kept := fun cursor found => ?_ }
      obtain ⟨between, isBetween, first⟩ := ticked.kept cursor found
      obtain ⟨final, isFinal, second⟩ := later.kept between isBetween
      exact ⟨final, isFinal, first.trans second⟩

/-- After every tick of a run that started without a cursor, no event between
the start block and the cursor is left out, and the cursor has not moved
back. -/
theorem liveTail_complete
    (config : ReaderConfig)
    (onChain : ScannerLog → Prop)
    (start : ReaderState)
    (fresh : start.cursor config = none)
    (earlier later : List TickAnswers)
    (truthful :
      ∀ answers ∈ earlier ++ later, answers.Truthful config onChain) :
    Complete config onChain
        (liveTailRun config start (earlier ++ later)) ∧
      CursorKept config (liveTailRun config start earlier)
        (liveTailRun config start (earlier ++ later)) := by
  have isSplit :
      liveTailRun config start (earlier ++ later) =
        liveTailRun config (liveTailRun config start earlier) later :=
    List.foldl_append
  have nothing :
      CoveredBelow config onChain start (scanFrom config start) := by
    intro batch _ lower upper
    unfold scanFrom at upper
    rw [fresh] at upper
    exact absurd upper (Nat.not_lt.mpr lower)
  have reached :=
    sound_liveTailRun nothing fun answers member =>
      truthful answers (List.mem_append_left later member)
  have sound :=
    sound_liveTailRun reached.covered fun answers member =>
      truthful answers (List.mem_append_right earlier member)
  rw [isSplit]
  refine ⟨fun cursor found batch registered lower upper => ?_, sound.kept⟩
  refine sound.covered batch registered lower ?_
  unfold scanFrom
  rw [found]
  exact Nat.lt_succ_of_le upper

/-- A Reader that scans every tag from block 90 on. -/
def sampleReader : ReaderConfig where
  libraries := sampleLibraries
  chainId := 1
  contentTags := none
  reorgWindowBlocks := 32
  startBlock := 90
  logScanChunkBlocks := 2000

def sampleReaderState : ReaderState where
  store := Store.empty
  cursors := Table.empty
  counters := emptyCounters
  processed := []

/-- One batch, registered in block 100. -/
def sampleLogs : List ScannerLog :=
  [{ blockNumber := 100
     transactionIndex := 0
     logIndex := 0
     transactionHash := 1
     log := .BlobBatchRegistered {
       versionedHash := 1
       submitter := 9
       contentTag := 5
       decoder := 1
       signatureRegistry := 1 } }]

def sampleGetLogs : LogScanClient :=
  fun fromBlock toBlock =>
    .ok (sampleLogs.filter fun log =>
      fromBlock ≤ log.blockNumber && log.blockNumber ≤ toBlock)

/-- The blob of the batch; what it holds is up to the on-chain decoder. -/
def sampleTickBlob : Bytes :=
  List.replicate 131072 0

/-- A tick at head 200 whose blob sources deliver the given answer. -/
def sampleTick
    (fetchBlob : Option Bytes) : TickAnswers where
  getBlockNumber := some 200
  cursorRead := true
  getLogs := sampleGetLogs
  getBlockHeader := fun _ => some 0
  event := fun _ _ => {
    fetchBlob := fetchBlob
    decodeAnswer := fun _ => some ([⟨7, 0, [3]⟩], [1])
    verifyAnswer := fun _ _ _ _ => some true
    fate := .commits }
  commit := fun _ => .commits
  now := fun _ => 0
  watch := {
    getBlockNumber := none
    listed := true
    getTransactionBlock := fun _ _ => none
    now := fun _ => 0
    fate := fun _ => .commits }

theorem sampleTick_truthful
    (fetchBlob : Option Bytes) :
    (sampleTick fetchBlob).Truthful sampleReader (· ∈ sampleLogs) := by
  intro head _ fromBlock toBlock logs _ answered log
  cases answered
  simp [sampleReader, selectsTag]

/-- A tick that parks, and one that reads the batch and moves the cursor to
block 168, the last one of the scan. -/
theorem liveTail_complete_after_park :
    Complete sampleReader (· ∈ sampleLogs)
        (liveTailRun sampleReader sampleReaderState
          ([sampleTick none] ++ [sampleTick (some sampleTickBlob)])) ∧
      CursorKept sampleReader
        (liveTailRun sampleReader sampleReaderState [sampleTick none])
        (liveTailRun sampleReader sampleReaderState
          ([sampleTick none] ++ [sampleTick (some sampleTickBlob)])) :=
  liveTail_complete sampleReader (· ∈ sampleLogs) sampleReaderState rfl
    [sampleTick none] [sampleTick (some sampleTickBlob)]
    fun answers member => by
      rcases List.mem_append.mp member with isFirst | isSecond
      · rw [List.mem_singleton.mp isFirst]
        exact sampleTick_truthful none
      · rw [List.mem_singleton.mp isSecond]
        exact sampleTick_truthful _

end Bam
