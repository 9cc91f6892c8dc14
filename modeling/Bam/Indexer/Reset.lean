import Bam.Indexer.Forward
import Bam.Indexer.Generations

namespace Bam

/-!
# Resets and crashes

A reset drops rows and cursors in statements of its own, and a tick writes back
the cursor it has read.  A cursor never runs ahead of its data where no reset
drops the rows of a generation a tick is about to write, and where none is cut
between its schema and its cursors.
-/

section Reset

variable {Source Event Decoded Values : Type}

/-- Every row a generation should hold at or below its cursor is projected: the
confirmed rows of its tag that its code decodes. -/
def IndexerDb.Covers
    (options : FleetOptions Decoded Values)
    (store : Store)
    (db : IndexerDb Values)
    (cursor : HandlerCursor) : Prop :=
  ∀ row,
    Passed (options.ticks cursor.handlerVersion) store cursor row →
    db.Present cursor.versionId row

/-- Neither a migration nor a reset. -/
def Activity.isServing : Activity → Bool
  | .stopped | .ticking _ => true
  | .migrating _ | .resetting _ => false

/-- Nothing but ticks is going on, and the handler's table exists. -/
def Fleet.Migrated (fleet : Fleet Source Values) : Prop :=
  (∀ process ∈ fleet.processes, process.activity.isServing = true) ∧
    ∃ table, fleet.db.schema = .posts table

variable (system : SourceSystem Source Event)
variable (options : FleetOptions Decoded Values)

/-- Once everything is migrated, the current generation holds every row at or
below its cursor. -/
def Fleet.NeverAhead (fleet : Fleet Source Values) : Prop :=
  fleet.Migrated →
    ∀ current,
      fleet.db.cursors.getCurrentCursor = some current →
      fleet.db.Covers options (system.store fleet.source) current

/-- The cursor a process is about to write back. -/
def Activity.writes? : Activity → Option HandlerCursor
  | .ticking (.listing forward) => some forward
  | .ticking (.projecting forward (_ :: _)) => some forward
  | _ => none

/-- The cursors that are stored or about to be written. -/
def Fleet.held (fleet : Fleet Source Values) : List HandlerCursor :=
  fleet.db.cursors.table.rows ++
    fleet.processes.filterMap fun process => process.activity.writes?

/-- A write confirms no row at or below a cursor that is stored or about to be
written, unless the row is projected. -/
def Fleet.WriteAllowed
    (fleet : Fleet Source Values)
    (event : Event) : Prop :=
  ∀ source,
    system.step fleet.source event = some source →
    ∀ cursor ∈ fleet.held,
      ∀ row,
        Passed (options.ticks cursor.handlerVersion) (system.store source)
          cursor row →
        row ∉ (system.store fleet.source).messages.rows →
        fleet.db.Present cursor.versionId row

/-- Between the cursor and the row a tick passes there is no row the generation
should hold, but the passed one that the tick projects. -/
def Fleet.PassAllowed
    (fleet : Fleet Source Values)
    (version : Nat)
    (forward : HandlerCursor)
    (row : MessageRow) : Prop :=
  ∀ other ∈ (system.store fleet.source).messages.rows,
    Decodable (options.ticks forward.handlerVersion) other →
    forward.forward.sortKey < other.coordKey →
    other.coordKey ≤ row.coordKey →
    (other = row ∧
      ((options.code version).decode row.contents).isSome = true) ∨
        fleet.db.Present forward.versionId other

/-- No tick is about to write a cursor with a row behind it that is not
projected. -/
def Fleet.CursorsDeletable (fleet : Fleet Source Values) : Prop :=
  ∀ process ∈ fleet.processes,
    ∀ forward,
      process.activity.writes? = some forward →
      fleet.db.Covers options (system.store fleet.source) forward

/-- No tick is about to write the cursor of a generation with a row behind
it. -/
def Fleet.VersionDeletable
    (fleet : Fleet Source Values)
    (versionId : Nat) : Prop :=
  ∀ process ∈ fleet.processes,
    ∀ forward,
      process.activity.writes? = some forward →
      forward.versionId = versionId →
      ∀ row,
        Passed (options.ticks forward.handlerVersion)
          (system.store fleet.source) forward row →
        False

/-- What a statement of a process has to avoid.  No tick meets a reorged
batch. -/
def Fleet.StatementAllowed
    (fleet : Fleet Source Values)
    (version : Nat) : Activity → Prop
  | .ticking (.projecting forward (row :: _)) =>
      fleet.PassAllowed system options version forward row
  | .ticking (.reorging _ (_ :: _)) => False
  | .resetting .deletingCursors => fleet.CursorsDeletable system options
  | .resetting (.deletingVersion versionId) =>
      fleet.VersionDeletable system options versionId
  | _ => True

/-- No confirmed row lies at or below a cursor that is stored or about to be
written. -/
def Fleet.NonePassed (fleet : Fleet Source Values) : Prop :=
  ∀ cursor ∈ fleet.held,
    ∀ row,
      Passed (options.ticks cursor.handlerVersion)
        (system.store fleet.source) cursor row →
      False

/-- What a step has to avoid.  No reset is cut between its schema and its
cursors while a cursor has rows behind it. -/
def resetAllows
    (fleet : Fleet Source Values) : FleetEvent Event → Prop
  | .source event => fleet.WriteAllowed system options event
  | .advance index _ =>
      ∀ process, fleet.processes[index]? = some process →
        fleet.StatementAllowed system options process.version
          process.activity
  | .fault index =>
      ∀ process, fleet.processes[index]? = some process →
        process.activity = .resetting .deletingCursors →
        fleet.NonePassed system options
  | .stop index =>
      ∀ process, fleet.processes[index]? = some process →
        process.activity = .resetting .deletingCursors →
        fleet.NonePassed system options
  | _ => True

section Decide

instance decidableIsPosts
    (schema : HandlerSchema Values) :
    Decidable (∃ table, schema = .posts table) :=
  match schema with
  | .posts table => .isTrue ⟨table, rfl⟩
  | .absent | .created =>
      .isFalse fun ⟨_, isPosts⟩ => by cases isPosts

instance decidableNeverAhead
    (fleet : Fleet Source Values) :
    Decidable (fleet.NeverAhead system options) :=
  inferInstanceAs (Decidable
    (((∀ process ∈ fleet.processes, process.activity.isServing = true) ∧
        ∃ table, fleet.db.schema = .posts table) →
      ∀ current, fleet.db.cursors.getCurrentCursor = some current →
        ∀ row,
          Passed (options.ticks current.handlerVersion)
            (system.store fleet.source) current row →
          fleet.db.Present current.versionId row))

instance decidableWriteAllowed
    (fleet : Fleet Source Values)
    (event : Event) :
    Decidable (fleet.WriteAllowed system options event) :=
  @decidableOfSome _ (system.step fleet.source event) _ fun source =>
    inferInstanceAs (Decidable (∀ cursor ∈ fleet.held,
      ∀ row,
        Passed (options.ticks cursor.handlerVersion) (system.store source)
          cursor row →
        (row ∉ (system.store fleet.source).messages.rows →
          fleet.db.Present cursor.versionId row)))

instance decidableFleetPassAllowed
    (fleet : Fleet Source Values)
    (version : Nat)
    (forward : HandlerCursor)
    (row : MessageRow) :
    Decidable (fleet.PassAllowed system options version forward row) :=
  inferInstanceAs (Decidable
    (∀ other ∈ (system.store fleet.source).messages.rows, _))

instance decidableCursorsDeletable
    (fleet : Fleet Source Values) :
    Decidable (fleet.CursorsDeletable system options) :=
  inferInstanceAs (Decidable (∀ process ∈ fleet.processes,
    ∀ forward, process.activity.writes? = some forward →
      ∀ row,
        Passed (options.ticks forward.handlerVersion)
          (system.store fleet.source) forward row →
        fleet.db.Present forward.versionId row))

instance decidableVersionDeletable
    (fleet : Fleet Source Values)
    (versionId : Nat) :
    Decidable (fleet.VersionDeletable system options versionId) :=
  inferInstanceAs (Decidable (∀ process ∈ fleet.processes,
    ∀ forward, process.activity.writes? = some forward →
      (forward.versionId = versionId →
        ∀ row,
          Passed (options.ticks forward.handlerVersion)
            (system.store fleet.source) forward row →
          False)))

instance decidableStatementAllowed
    (fleet : Fleet Source Values)
    (version : Nat)
    (activity : Activity) :
    Decidable (fleet.StatementAllowed system options version activity) :=
  match activity with
  | .ticking (.projecting forward (row :: _)) =>
      inferInstanceAs (Decidable
        (fleet.PassAllowed system options version forward row))
  | .ticking (.reorging _ (_ :: _)) => .isFalse id
  | .resetting .deletingCursors =>
      inferInstanceAs (Decidable (fleet.CursorsDeletable system options))
  | .resetting (.deletingVersion versionId) =>
      inferInstanceAs (Decidable
        (fleet.VersionDeletable system options versionId))
  | .stopped | .migrating _ | .ticking .idle | .ticking (.listing _)
  | .ticking (.projecting _ []) | .ticking (.listingReorged _)
  | .ticking (.reorging _ []) | .resetting .dropping
  | .resetting .creating | .resetting .migratingTable
  | .resetting .readingCurrent => .isTrue trivial

instance decidableNonePassed
    (fleet : Fleet Source Values) :
    Decidable (fleet.NonePassed system options) :=
  inferInstanceAs (Decidable (∀ cursor ∈ fleet.held,
    ∀ row,
      Passed (options.ticks cursor.handlerVersion)
        (system.store fleet.source) cursor row →
      False))

instance decidableResetAllows
    (fleet : Fleet Source Values)
    (event : FleetEvent Event) :
    Decidable (resetAllows system options fleet event) :=
  match event with
  | .source event =>
      inferInstanceAs (Decidable (fleet.WriteAllowed system options event))
  | .advance index _ =>
      inferInstanceAs (Decidable (∀ process,
        fleet.processes[index]? = some process →
        fleet.StatementAllowed system options process.version
          process.activity))
  | .fault index | .stop index =>
      inferInstanceAs (Decidable (∀ process,
        fleet.processes[index]? = some process →
        (process.activity = .resetting .deletingCursors →
          fleet.NonePassed system options)))
  | .boot _ | .reset _ _ => .isTrue trivial

end Decide

/-- A reset has dropped the schema and not yet the cursors. -/
def Fleet.Doomed (fleet : Fleet Source Values) : Prop :=
  ∃ process ∈ fleet.processes,
    process.activity = .resetting .deletingCursors

/-- Every cursor, stored or about to be written, has its rows projected. -/
structure Fleet.Covering (fleet : Fleet Source Values) : Prop where
  stored :
    ∀ generation ∈ fleet.db.cursors.table.rows,
      fleet.db.Covers options (system.store fleet.source) generation
  carried : fleet.CursorsDeletable system options

/-- What allowed steps keep. -/
structure Fleet.Recoverable (fleet : Fleet Source Values) : Prop where
  covering : fleet.Doomed ∨ fleet.Covering system options
  listed :
    ∀ process ∈ fleet.processes,
      ∀ stage, process.activity = .ticking stage →
        ∀ row ∈ stage.rows,
          row.isListed options.chainId
            (options.code process.version).contentTag = true

variable {system options}

theorem recoverable_initial
    (source : Source) :
    (Fleet.initial source : Fleet Source Values).Recoverable system
      options where
  covering :=
    .inr ⟨fun _ member => absurd member List.not_mem_nil,
      fun _ member => absurd member List.not_mem_nil⟩
  listed _ member := absurd member List.not_mem_nil

/-- Where no reset is half done, everything is covered. -/
theorem Fleet.Recoverable.neverAhead
    {fleet : Fleet Source Values}
    (recoverable : fleet.Recoverable system options) :
    fleet.NeverAhead system options := by
  rintro ⟨serving, -⟩ current isCurrent
  rcases recoverable.covering with ⟨process, member, half⟩ | covering
  · have isServing := serving process member
    rw [half] at isServing
    cases isServing
  · exact covering.stored current
      (Table.mem_of_get?
        (HandlerCursors.getCurrentCursor_eq_some_iff.mp isCurrent).1)

theorem Fleet.mem_held_of_stored
    {fleet : Fleet Source Values}
    {cursor : HandlerCursor}
    (stored : cursor ∈ fleet.db.cursors.table.rows) :
    cursor ∈ fleet.held :=
  List.mem_append_left _ stored

theorem Fleet.mem_held_of_writes
    {fleet : Fleet Source Values}
    {process : IndexerProcess}
    {cursor : HandlerCursor}
    (member : process ∈ fleet.processes)
    (writes : process.activity.writes? = some cursor) :
    cursor ∈ fleet.held :=
  List.mem_append_right _
    (List.mem_filterMap.mpr ⟨process, member, writes⟩)

/-- A cursor at the same place of the same generation is covered as well. -/
theorem IndexerDb.Covers.of_same
    {store : Store}
    {db next : IndexerDb Values}
    {cursor later : HandlerCursor}
    (covers : db.Covers options store cursor)
    (sameVersion : later.versionId = cursor.versionId)
    (sameHandler : later.handlerVersion = cursor.handlerVersion)
    (samePlace : later.forward = cursor.forward)
    (keeps :
      ∀ row, db.Present cursor.versionId row →
        next.Present cursor.versionId row) :
    next.Covers options store later := by
  intro row passed
  rw [sameVersion]
  refine keeps row (covers row ?_)
  rw [sameHandler] at passed
  exact ⟨passed.1, passed.2.1, samePlace ▸ passed.2.2⟩

/-- Nothing lies behind a generation at genesis. -/
theorem covers_genesis
    (store : Store)
    (db : IndexerDb Values)
    (handlerVersion versionId : Nat)
    (now : Int) :
    db.Covers options store (.genesis handlerVersion versionId now) := by
  rintro row ⟨-, ⟨listed, -⟩, upTo⟩
  obtain ⟨coord, located⟩ := MessageRow.coord_of_isListed listed
  rw [MessageRow.coordKey_of_coord located] at upTo
  unfold MessageRow.coord? at located
  split at located
  · cases located
    refine absurd upTo (not_le.mpr ?_)
    simp only [HandlerCursor.genesis, HandlerCursor.forward,
      ChainCoord.sortKey, List.cons_lt_cons_iff]
    exact .inl (by omega)
  · cases located

/-- The cursor of a passed row is covered. -/
theorem covers_advancedTo
    {fleet : Fleet Source Values}
    {next : IndexerDb Values}
    {version : Nat}
    {forward : HandlerCursor}
    {row : MessageRow}
    (allowed : fleet.PassAllowed system options version forward row)
    (listed :
      row.isListed options.chainId (options.code version).contentTag =
        true)
    (covers :
      fleet.db.Covers options (system.store fleet.source) forward)
    (keeps :
      ∀ versionId other,
        fleet.db.Present versionId other → next.Present versionId other)
    (own :
      ((options.code version).decode row.contents).isSome = true →
        next.Present forward.versionId row)
    (now : Int) :
    next.Covers options (system.store fleet.source)
      (forward.advancedTo row now) := by
  rintro other ⟨stored, decodable, upTo⟩
  rw [HandlerCursor.sortKey_advancedTo listed] at upTo
  by_cases old : other.coordKey ≤ forward.forward.sortKey
  · exact keeps _ other (covers other ⟨stored, decodable, old⟩)
  · rcases allowed other stored decodable (not_le.mp old) upTo with
      ⟨rfl, decodes⟩ | present
    · exact own decodes
    · exact keeps _ other present

/-- A half-done reset of another process stays half done. -/
theorem doomed_setActivity
    {fleet : Fleet Source Values}
    {index : Nat}
    {process : IndexerProcess}
    (doomed : fleet.Doomed)
    (found : fleet.processes[index]? = some process)
    (otherwise : process.activity ≠ .resetting .deletingCursors)
    (activity : Activity) :
    (fleet.setActivity index process activity).Doomed := by
  obtain ⟨other, member, half⟩ := doomed
  obtain ⟨position, isOther⟩ := List.getElem?_of_mem member
  have differs : index ≠ position := by
    rintro rfl
    cases found.symm.trans isOther
    exact otherwise half
  refine ⟨other, ?_, half⟩
  have stays :
      (fleet.processes.set index { process with activity := activity })[
          position]? = some other :=
    (List.getElem?_set_ne differs).trans isOther
  exact List.mem_of_getElem? stays

/-- A step of a process that loses no row. -/
theorem Fleet.Covering.of_keeps
    {fleet : Fleet Source Values}
    {index : Nat}
    {process : IndexerProcess}
    {activity : Activity}
    {next : IndexerDb Values}
    (covering : fleet.Covering system options)
    (keeps :
      ∀ versionId row,
        fleet.db.Present versionId row → next.Present versionId row)
    (stored :
      ∀ generation ∈ next.cursors.table.rows,
        next.Covers options (system.store fleet.source) generation)
    (own :
      ∀ forward, activity.writes? = some forward →
        next.Covers options (system.store fleet.source) forward)
    (nextVersionId : Nat) :
    Fleet.Covering system options {
      fleet.setActivity index process activity with
      db := next
      nextVersionId := nextVersionId } where
  stored := stored
  carried := by
    intro other isOther forward writes
    rcases mem_setActivity isOther with old | rfl
    · exact (covering.carried other old forward writes).of_same rfl rfl rfl
        (keeps forward.versionId)
    · exact own forward writes

/-- The stored cursors stay covered where no row is lost. -/
theorem Fleet.Covering.stored_of_keeps
    {fleet : Fleet Source Values}
    {next : IndexerDb Values}
    (covering : fleet.Covering system options)
    (same : next.cursors = fleet.db.cursors)
    (keeps :
      ∀ versionId row,
        fleet.db.Present versionId row → next.Present versionId row) :
    ∀ generation ∈ next.cursors.table.rows,
      next.Covers options (system.store fleet.source) generation := by
  intro generation member
  rw [same] at member
  exact (covering.stored generation member).of_same rfl rfl rfl
    (keeps generation.versionId)

/-- The stored cursors stay covered where a covered one is written. -/
theorem Fleet.Covering.stored_of_upsert
    {fleet : Fleet Source Values}
    {next : IndexerDb Values}
    {cursor : HandlerCursor}
    (covering : fleet.Covering system options)
    (upserted :
      fleet.db.cursors.upsertCursor cursor = some next.cursors)
    (keeps :
      ∀ versionId row,
        fleet.db.Present versionId row → next.Present versionId row)
    (covers :
      next.Covers options (system.store fleet.source) cursor) :
    ∀ generation ∈ next.cursors.table.rows,
      next.Covers options (system.store fleet.source) generation := by
  intro generation member
  rw [(HandlerCursors.upsertCursor_eq_some upserted).1] at member
  rcases Table.mem_put.mp member with rfl | ⟨old, -⟩
  · exact covers
  · exact (covering.stored generation old).of_same rfl rfl rfl
      (keeps generation.versionId)

/-- The stored cursors stay covered where generations are switched. -/
theorem Fleet.Covering.stored_of_switch
    {fleet : Fleet Source Values}
    {handlerVersion versionId : Nat}
    {now : Int}
    {existing : Option HandlerCursor}
    {cursors : HandlerCursors}
    (covering : fleet.Covering system options)
    (committed :
      fleet.db.cursors.switchGeneration handlerVersion versionId now
        existing = some cursors) :
    ∀ generation ∈ cursors.table.rows,
      fleet.db.Covers options (system.store fleet.source) generation := by
  rcases switchGeneration_eq_some committed with
    same | ⟨before, isBefore, upserted⟩
  · rw [same]
    exact covering.stored
  · intro generation member
    rw [(HandlerCursors.upsertCursor_eq_some upserted).1] at member
    rcases Table.mem_put.mp member with rfl | ⟨old, -⟩
    · exact covers_genesis _ _ _ _ _
    · rcases isBefore with rfl | rfl
      · exact covering.stored generation old
      · have keepsKey :
            ∀ row, (HandlerCursors.superseded now row).versionId =
              row.versionId :=
          fun _ => rfl
        obtain ⟨earlier, isEarlier, isGeneration⟩ :=
          (@Table.mem_update _ _ _ _ _ _ keepsKey _).mp old
        subst isGeneration
        have covers := covering.stored earlier isEarlier
        split
        · exact covers.of_same rfl rfl rfl fun _ => id
        · exact covers

/-- A forward pass writes the cursor it carries. -/
theorem writes?_projecting
    {forward cursor : HandlerCursor}
    {rows : List MessageRow}
    (writes :
      (Activity.ticking (.projecting forward rows)).writes? =
        some cursor) :
    cursor = forward := by
  cases rows with
  | nil =>
      cases writes
  | cons row rest =>
      exact (Option.some.inj writes).symm

/-- An allowed transaction of a tick keeps everything covered. -/
theorem Fleet.Covering.tick
    {fleet : Fleet Source Values}
    {index : Nat}
    {process : IndexerProcess}
    {stage stage' : TickStage}
    {next : IndexerDb Values}
    {now : Int}
    (covering : fleet.Covering system options)
    (found : fleet.processes[index]? = some process)
    (isTicking : process.activity = .ticking stage)
    (listed :
      ∀ row ∈ stage.rows,
        row.isListed options.chainId
          (options.code process.version).contentTag = true)
    (allowed : fleet.StatementAllowed system options process.version
      process.activity)
    (move :
      TickMove (options.ticks process.version)
        (system.store fleet.source) fleet.db now stage next stage')
    (nextVersionId : Nat) :
    Fleet.Covering system options {
      fleet.setActivity index process (.ticking stage') with
      db := next
      nextVersionId := nextVersionId } := by
  have member := List.mem_of_getElem? found
  have writing :
      ∀ forward, (Activity.ticking stage).writes? = some forward →
        fleet.db.Covers options (system.store fleet.source) forward :=
    fun forward writes =>
      covering.carried process member forward (isTicking ▸ writes)
  have unwritten :
      ∀ activity : Activity,
        (∀ forward, activity.writes? = some forward →
          fleet.db.Covers options (system.store fleet.source) forward) →
        Fleet.Covering system options {
          fleet.setActivity index process activity with
          db := fleet.db
          nextVersionId := nextVersionId } :=
    fun _ own =>
      covering.of_keeps (fun _ _ => id) covering.stored own nextVersionId
  unfold Fleet.StatementAllowed at allowed
  rw [isTicking] at allowed
  cases move with
  | absent _ | projected _ | skipRefused _ _ _ _ _
  | projectRefused _ _ _ _ _ _ | listReorged _ | finish _
  | evictRefused _ _ _ _ =>
      refine unwritten _ fun forward writes => ?_
      cases writes
  | read current isCurrent =>
      refine unwritten _ ?_
      rintro _ ⟨⟩
      exact covering.stored current
        (Table.mem_of_get?
          (HandlerCursors.getCurrentCursor_eq_some_iff.mp isCurrent).1)
  | list current =>
      refine unwritten _ fun forward writes => ?_
      rw [writes?_projecting writes]
      exact writing current rfl
  | skip forward row rest _ undecodable committed =>
      obtain ⟨sameSchema, upserted⟩ := skipTxn_eq_some committed
      have keeps :
          ∀ versionId other,
            fleet.db.Present versionId other →
              next.Present versionId other := by
        intro versionId other present
        unfold IndexerDb.Present at present ⊢
        rw [sameSchema]
        exact present
      have covers :
          next.Covers options (system.store fleet.source)
            (forward.advancedTo row now) := by
        refine covers_advancedTo allowed
          (listed row List.mem_cons_self) (writing forward rfl) keeps
          (fun decodes => ?_) now
        rw [show (options.code process.version).decode row.contents = none
          from undecodable] at decodes
        cases decodes
      refine covering.of_keeps keeps
        (covering.stored_of_upsert upserted keeps covers) ?_ nextVersionId
      intro written writes
      rw [writes?_projecting writes]
      exact covers
  | project forward row rest decoded _ decodes committed =>
      obtain ⟨_, _, _, -, -, -, -, -, -, upserted⟩ :=
        projectTxn_eq_some committed
      obtain ⟨own, keeps⟩ := present_projectTxn committed
      have covers :
          next.Covers options (system.store fleet.source)
            (forward.advancedTo row now) :=
        covers_advancedTo allowed (listed row List.mem_cons_self)
          (writing forward rfl) keeps (fun _ => own) now
      refine covering.of_keeps keeps
        (covering.stored_of_upsert upserted keeps covers) ?_ nextVersionId
      intro written writes
      rw [writes?_projecting writes]
      exact covers
  | evict forward entry rest _ committed =>
      exact absurd allowed id

/-- The rows a tick reads and keeps are rows of its tag. -/
theorem listed_tick
    {store : Store}
    {db next : IndexerDb Values}
    {now : Int}
    {ticks : TickOptions Decoded Values}
    {stage stage' : TickStage}
    (listed :
      ∀ row ∈ stage.rows,
        row.isListed ticks.chainId ticks.handler.contentTag = true)
    (move : TickMove ticks store db now stage next stage') :
    ∀ row ∈ stage'.rows,
      row.isListed ticks.chainId ticks.handler.contentTag = true := by
  cases move with
  | list forward =>
      exact fun row member => (mem_of_mem_listConfirmedAfter member).2.1
  | skip _ row _ _ _ _ | project _ row _ _ _ _ _ =>
      exact fun other member =>
        listed other (List.mem_cons_of_mem row member)
  | _ => exact fun _ member => absurd member List.not_mem_nil

/-- A dropped generation takes no row of another one along. -/
theorem present_deleteVersion
    {schema next : HandlerSchema Values}
    {cursors cursors' : HandlerCursors}
    {deleted versionId : Nat}
    {row : MessageRow}
    (committed : schema.deleteVersion deleted = some next)
    (other : versionId ≠ deleted)
    (present :
      (IndexerDb.mk cursors schema).Present versionId row) :
    (IndexerDb.mk cursors' next).Present versionId row := by
  obtain ⟨projected, member, ofVersion, ofMessage⟩ := present
  cases schema with
  | absent | created =>
      cases member
  | posts table =>
      cases committed
      refine ⟨projected, ?_, ofVersion, ofMessage⟩
      refine List.mem_filter.mpr ⟨member, ?_⟩
      simp [ofVersion, other]

/-- Deleting every cursor leaves what ticks are about to write. -/
theorem Fleet.Covering.cursorsDeleted
    {fleet : Fleet Source Values}
    {index : Nat}
    {process : IndexerProcess}
    (deletable : fleet.CursorsDeletable system options)
    (nextVersionId : Nat) :
    Fleet.Covering system options {
      fleet.setActivity index process (.resetting .creating) with
      db :=
        { fleet.db with cursors := fleet.db.cursors.deleteAllCursors }
      nextVersionId := nextVersionId } where
  stored _ member := absurd member List.not_mem_nil
  carried := by
    intro other isOther forward writes
    rcases mem_setActivity isOther with old | rfl
    · exact deletable other old forward writes
    · cases writes

/-- An allowed statement of a process that is not half through a reset keeps
everything covered, or leaves a reset half done. -/
theorem Fleet.Covering.statement
    {fleet : Fleet Source Values}
    {index : Nat}
    {process : IndexerProcess}
    {activity' : Activity}
    {next : IndexerDb Values}
    {now : Int}
    (covering : fleet.Covering system options)
    (found : fleet.processes[index]? = some process)
    (listed :
      ∀ stage, process.activity = .ticking stage →
        ∀ row ∈ stage.rows,
          row.isListed options.chainId
            (options.code process.version).contentTag = true)
    (allowed : fleet.StatementAllowed system options process.version
      process.activity)
    (move :
      ProcessMove options (system.store fleet.source) fleet.db
        fleet.nextVersionId now process.version process.activity next
        activity')
    (nextVersionId : Nat) :
    activity' = .resetting .deletingCursors ∨
      Fleet.Covering system options {
        fleet.setActivity index process activity' with
        db := next
        nextVersionId := nextVersionId } := by
  have sameRows :
      ∀ (activity : Activity) (schema : HandlerSchema Values),
        (∀ row ∈ fleet.db.schema.rows, row ∈ schema.rows) →
        activity.writes? = none →
        Fleet.Covering system options {
          fleet.setActivity index process activity with
          db := { fleet.db with schema }
          nextVersionId := nextVersionId } := by
    intro activity schema rows silent
    have keeps :
        ∀ versionId row, fleet.db.Present versionId row →
          ({ fleet.db with schema } : IndexerDb Values).Present
            versionId row := by
      rintro versionId row ⟨projected, member, facts⟩
      exact ⟨projected, rows projected member, facts⟩
    refine covering.of_keeps keeps
      (covering.stored_of_keeps rfl keeps) ?_ nextVersionId
    intro forward writes
    rw [silent] at writes
    cases writes
  obtain ⟨version, activity⟩ := process
  simp only at move
  cases move with
  | stopped | readExisting | migrationThrew _ | readCurrent _ _
  | resetEnded _ _ =>
      exact .inr (sameRows _ fleet.db.schema (fun _ => id) rfl)
  | tick move =>
      exact .inr (covering.tick found rfl (listed _ rfl) allowed move
        nextVersionId)
  | ensured =>
      exact .inr (sameRows _ _
        (fun row member => (rows_createIfAbsent _).symm ▸ member) rfl)
  | switched existing cursors committed =>
      have keeps :
          ∀ versionId row, fleet.db.Present versionId row →
            ({ fleet.db with cursors } : IndexerDb Values).Present
              versionId row :=
        fun _ _ present => present
      refine .inr (covering.of_keeps keeps ?_ ?_ nextVersionId)
      · intro generation member
        exact (covering.stored_of_switch committed generation
          member).of_same rfl rfl rfl (keeps generation.versionId)
      · intro forward writes
        cases writes
  | tableMigrated schema migrated | resetMigrated schema migrated =>
      exact .inr (sameRows _ _
        (fun row member => (rows_migrate migrated).symm ▸ member) rfl)
  | dropped =>
      exact .inl rfl
  | cursorsDeleted =>
      exact .inr (.cursorsDeleted covering.carried nextVersionId)
  | created isAbsent =>
      refine .inr (sameRows _ _ (fun row member => ?_) rfl)
      rw [isAbsent] at member
      cases member
  | versionDeleted deleted schema committed =>
      have keeps :
          ∀ versionId row, versionId ≠ deleted →
            fleet.db.Present versionId row →
              ({ cursors := fleet.db.cursors.deleteCursor deleted
                 schema } : IndexerDb Values).Present versionId row :=
        fun _ _ other => present_deleteVersion committed other
      refine .inr ⟨?_, ?_⟩
      · intro generation member
        obtain ⟨stored, other⟩ := List.mem_filter.mp member
        have differs : generation.versionId ≠ deleted := by
          simpa using other
        exact (covering.stored generation stored).of_same rfl rfl rfl
          fun row => keeps _ row differs
      · intro other isOther forward writes
        rcases mem_setActivity isOther with old | rfl
        · by_cases same : forward.versionId = deleted
          · exact fun row passed =>
              (allowed other old forward writes same row passed).elim
          · exact (covering.carried other old forward writes).of_same rfl
              rfl rfl fun row => keeps _ row same
        · cases writes

/-- A failed statement is about to write no other cursor than before. -/
theorem writes?_afterFault
    (process : IndexerProcess)
    {forward : HandlerCursor}
    (writes : (process.afterFault options).writes? = some forward) :
    process.activity.writes? = some forward := by
  unfold IndexerProcess.afterFault at writes
  split at writes
  · cases writes
  · cases writes
  · unfold tickFault at writes
    split at writes
    · split at writes <;> cases writes
    · cases writes
    · cases writes
  · cases writes

/-- A failed tick has no row left to project. -/
theorem rows_afterFault
    {process : IndexerProcess}
    {stage : TickStage}
    (ticks : process.afterFault options = .ticking stage) :
    stage.rows = [] := by
  unfold IndexerProcess.afterFault at ticks
  split at ticks
  · cases ticks
  · cases ticks
  · cases ticks
    unfold tickFault
    split
    · split <;> rfl
    · rfl
    · rfl
  · cases ticks
    rfl

/-- A process gives up what it did, or starts a reset. -/
theorem Fleet.Recoverable.setActivity
    {fleet : Fleet Source Values}
    {index : Nat}
    {process : IndexerProcess}
    {activity : Activity}
    (recoverable : fleet.Recoverable system options)
    (found : fleet.processes[index]? = some process)
    (allowed :
      process.activity = .resetting .deletingCursors →
        fleet.NonePassed system options)
    (writes :
      ∀ forward, activity.writes? = some forward →
        process.activity.writes? = some forward)
    (listed : ∀ stage, activity = .ticking stage → stage.rows = []) :
    (fleet.setActivity index process activity).Recoverable system
      options where
  covering := by
    have member := List.mem_of_getElem? found
    have carried :
        fleet.CursorsDeletable system options →
          (fleet.setActivity index process activity).CursorsDeletable
            system options := by
      intro before other isOther forward isWritten
      rcases mem_setActivity isOther with old | rfl
      · exact before other old forward isWritten
      · exact before process member forward (writes forward isWritten)
    rcases recoverable.covering with doomed | covering
    · by_cases half : process.activity = .resetting .deletingCursors
      · have none := allowed half
        exact .inr
          ⟨fun generation stored row passed =>
            (none generation (fleet.mem_held_of_stored stored) row
              passed).elim,
          carried fun other old forward isWritten row passed =>
            (none forward (fleet.mem_held_of_writes old isWritten) row
              passed).elim⟩
      · exact .inl (doomed_setActivity doomed found half activity)
    · exact .inr ⟨covering.stored, carried covering.carried⟩
  listed := by
    intro other isOther stage isStage row member
    rcases mem_setActivity isOther with old | rfl
    · exact recoverable.listed other old stage isStage row member
    · rw [listed stage isStage] at member
      exact absurd member List.not_mem_nil

/-- An allowed write confirms nothing behind a cursor. -/
theorem Fleet.Recoverable.write
    {fleet : Fleet Source Values}
    {event : Event}
    {source : Source}
    (recoverable : fleet.Recoverable system options)
    (allowed : fleet.WriteAllowed system options event)
    (taken : system.step fleet.source event = some source) :
    ({ fleet with source } : Fleet Source Values).Recoverable system
      options where
  covering := by
    rcases recoverable.covering with doomed | covering
    · exact .inl doomed
    · refine .inr ⟨?_, ?_⟩
      · intro generation member row passed
        by_cases old : row ∈ (system.store fleet.source).messages.rows
        · exact covering.stored generation member row
            ⟨old, passed.2.1, passed.2.2⟩
        · exact allowed source taken generation
            (fleet.mem_held_of_stored member) row passed old
      · intro process member forward writes row passed
        by_cases old : row ∈ (system.store fleet.source).messages.rows
        · exact covering.carried process member forward writes row
            ⟨old, passed.2.1, passed.2.2⟩
        · exact allowed source taken forward
            (fleet.mem_held_of_writes member writes) row passed old
  listed := recoverable.listed

/-- An allowed statement of a process leaves what can be recovered. -/
theorem Fleet.Recoverable.statement
    {fleet : Fleet Source Values}
    {index : Nat}
    {process : IndexerProcess}
    {activity' : Activity}
    {next : IndexerDb Values}
    {now : Int}
    (recoverable : fleet.Recoverable system options)
    (found : fleet.processes[index]? = some process)
    (allowed : fleet.StatementAllowed system options process.version
      process.activity)
    (move :
      ProcessMove options (system.store fleet.source) fleet.db
        fleet.nextVersionId now process.version process.activity next
        activity')
    (nextVersionId : Nat) :
    Fleet.Recoverable system options {
      fleet.setActivity index process activity' with
      db := next
      nextVersionId := nextVersionId } where
  covering := by
    have member := List.mem_of_getElem? found
    rcases recoverable.covering with doomed | covering
    · by_cases half : process.activity = .resetting .deletingCursors
      · refine .inr ?_
        unfold Fleet.StatementAllowed at allowed
        obtain ⟨version, activity⟩ := process
        subst half
        cases move with
        | cursorsDeleted =>
            exact .cursorsDeleted allowed nextVersionId
        | resetEnded _ unmarked =>
            exact absurd rfl unmarked
      · exact .inl (doomed_setActivity doomed found half activity')
    · rcases covering.statement found (recoverable.listed process member)
          allowed move nextVersionId with half | covered
      · refine .inl ⟨_, List.mem_of_getElem?
          (List.getElem?_set_self ?_), half⟩
        exact (List.getElem?_eq_some_iff.mp found).1
      · exact .inr covered
  listed := by
    intro other isOther stage isStage
    rcases mem_setActivity isOther with old | rfl
    · exact recoverable.listed other old stage isStage
    · obtain ⟨version, activity⟩ := process
      subst isStage
      cases move with
      | tick move =>
          exact listed_tick
            (recoverable.listed _ (List.mem_of_getElem? found) _ rfl) move
      | _ =>
          exact fun _ member => absurd member List.not_mem_nil

/-- Every allowed step leaves what can be recovered. -/
theorem recoverable_fleetStep
    {fleet next : Fleet Source Values}
    {event : FleetEvent Event}
    (recoverable : fleet.Recoverable system options)
    (allowed : resetAllows system options fleet event)
    (taken : fleetStep system options fleet event = some next) :
    next.Recoverable system options := by
  cases event with
  | source event =>
      obtain ⟨source, stepped, rfl⟩ := Option.map_eq_some_iff.mp taken
      exact recoverable.write allowed stepped
  | boot version =>
      cases taken
      refine ⟨recoverable.covering.imp ?_ ?_, ?_⟩
      · rintro ⟨process, member, half⟩
        exact ⟨process, List.mem_append_left _ member, half⟩
      · refine fun covering => ⟨covering.stored, fun process member => ?_⟩
        rcases List.mem_append.mp member with old | isNew
        · exact covering.carried process old
        · cases List.mem_singleton.mp isNew
          intro forward writes
          cases writes
      · intro process member
        rcases List.mem_append.mp member with old | isNew
        · exact recoverable.listed process old
        · cases List.mem_singleton.mp isNew
          intro stage isStage
          cases isStage
  | advance index now =>
      obtain ⟨process, found, rfl⟩ := Option.map_eq_some_iff.mp taken
      exact recoverable.statement found (allowed process found)
        (advance_move options process _ _ _ now) _
  | reset index kind =>
      obtain ⟨process, filtered, rfl⟩ := Option.map_eq_some_iff.mp taken
      obtain ⟨found, isIdle⟩ := Option.filter_eq_some_iff.mp filtered
      have isIdle : process.activity = .ticking .idle := by
        simpa using isIdle
      refine recoverable.setActivity found ?_ ?_ ?_
      · intro half
        cases isIdle.symm.trans half
      · intro forward writes
        cases writes
      · intro stage isStage
        cases isStage
  | fault index =>
      obtain ⟨process, found, rfl⟩ := Option.map_eq_some_iff.mp taken
      exact recoverable.setActivity found (allowed process found)
        (fun _ => writes?_afterFault process)
        fun _ => rows_afterFault
  | stop index =>
      obtain ⟨process, found, rfl⟩ := Option.map_eq_some_iff.mp taken
      refine recoverable.setActivity found (allowed process found) ?_ ?_
      · intro forward writes
        cases writes
      · intro stage isStage
        cases isStage

/-- In every run whose steps are allowed, no cursor is ahead of its data once
everything is migrated. -/
theorem neverAhead_of_allowed
    (system : SourceSystem Source Event)
    (options : FleetOptions Decoded Values)
    (source : Source)
    (events : List (FleetEvent Event))
    (allowed :
      Runs.AllSteps (fleetStep system options) (resetAllows system options)
        (Fleet.initial source) events) :
    Runs.AllStates (fleetStep system options)
      (Fleet.NeverAhead system options) (Fleet.initial source) events := by
  have recoverable :
      Runs.AllStates (fleetStep system options)
        (Fleet.Recoverable system options) (Fleet.initial source) events :=
    Runs.allStates_of_invariant recoverable_fleetStep
      (recoverable_initial source) allowed
  exact recoverable.mono fun _ => Fleet.Recoverable.neverAhead

end Reset

/-- A process boots, ticks and resets; another one boots and ticks. -/
def resetThenRestart : List (FleetEvent SystemEvent) :=
  .source (.processBatch (sampleBatch 1 [3])) ::
    .boot 1 :: migration 0 ++ List.replicate 6 (.advance 0 0) ++
      .reset 0 .handler :: List.replicate 4 (.advance 0 0) ++
        .boot 1 :: migration 1 ++ List.replicate 6 (.advance 1 0)

theorem neverAhead_resetThenRestart :
    Runs.AllStates (fleetStep (serviceSource sampleConfig) sampleFleet)
      (Fleet.NeverAhead (serviceSource sampleConfig) sampleFleet)
      (Fleet.initial World.initial) resetThenRestart :=
  neverAhead_of_allowed (serviceSource sampleConfig) sampleFleet
    World.initial resetThenRestart (by decide +kernel)

/-- A process stops between the two statements of a reset. -/
def resetCut : List (FleetEvent SystemEvent) :=
  .source (.processBatch (sampleBatch 1 [3])) ::
    .boot 1 :: migration 0 ++ List.replicate 6 (.advance 0 0) ++
      .reset 0 .handler :: .advance 0 0 :: .stop 0 ::
        .boot 1 :: migration 1

/-- The restarted process takes over the cursor of the dropped rows. -/
theorem cursor_ahead_after_cut_reset :
    ¬ Runs.AllStates (fleetStep (serviceSource sampleConfig) sampleFleet)
      (Fleet.NeverAhead (serviceSource sampleConfig) sampleFleet)
      (Fleet.initial World.initial) resetCut := by
  intro all
  have view :
      (Runs.exec? (fleetStep (serviceSource sampleConfig) sampleFleet)
        (Fleet.initial World.initial) resetCut).map
          (fun fleet =>
            decide
              (fleet.NeverAhead (serviceSource sampleConfig)
                sampleFleet)) =
        some false := by
    decide +kernel
  obtain ⟨final, executed, isView⟩ := Option.map_eq_some_iff.mp view
  exact of_decide_eq_false isView (all.final executed)

end Bam
