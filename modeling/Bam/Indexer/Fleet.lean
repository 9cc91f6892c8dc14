import Bam.Indexer.Migrate
import Bam.Indexer.Serving

namespace Bam

/-!
# Several indexer processes over one database

Processes of one handler name, each with the version of the handler it was
built with.  A process migrates when it boots and ticks or resets afterwards.
A step is the next statement or transaction of one of them, one that fails, or
a crash.
-/

/-- The handlers of one name, by version. -/
structure FleetOptions (Decoded Values : Type) where
  chainId : Nat
  batchSize : Nat
  code : Nat → IndexerHandler Decoded Values
  versioned : ∀ version, (code version).version = version

/-- The tick options of a process. -/
def FleetOptions.ticks
    {Decoded Values : Type}
    (options : FleetOptions Decoded Values)
    (version : Nat) : TickOptions Decoded Values where
  chainId := options.chainId
  handler := options.code version
  batchSize := options.batchSize

structure IndexerProcess where
  version : Nat
  activity : Activity
  deriving Repr, DecidableEq

structure Fleet (Source Values : Type) where
  source : Source
  db : IndexerDb Values
  processes : List IndexerProcess
  /-- The next version id `randomUUID` answers. -/
  nextVersionId : Nat

/-- An empty database and no process. -/
def Fleet.initial
    {Source Values : Type}
    (source : Source) : Fleet Source Values where
  source := source
  db := { cursors := .empty, schema := .absent }
  processes := []
  nextVersionId := 0

inductive FleetEvent (Event : Type) where
  | source (event : Event)
  | boot (version : Nat)
  | advance (index : Nat) (now : Int)
  | reset (index : Nat) (kind : ResetKind)
  /-- The next statement of a process fails and is rolled back. -/
  | fault (index : Nat)
  | stop (index : Nat)

section Step

variable {Source Event Decoded Values : Type}
variable (system : SourceSystem Source Event)
variable (options : FleetOptions Decoded Values)

/-- The next statement of a process. -/
def IndexerProcess.advance
    (process : IndexerProcess)
    (store : Store)
    (db : IndexerDb Values)
    (versionId : Nat)
    (now : Int) : IndexerDb Values × Activity :=
  match process.activity with
  | .stopped => (db, .stopped)
  | .migrating stage =>
      migrateAdvance process.version versionId db now stage
  | .ticking stage =>
      let (next, stage) :=
        tickAdvance (options.ticks process.version) store db now stage
      (next, .ticking stage)
  | .resetting stage => resetAdvance db stage

/-- What a failed statement leaves a process to do. -/
def IndexerProcess.afterFault
    (process : IndexerProcess) : Activity :=
  match process.activity with
  | .stopped => .stopped
  | .migrating _ => .stopped
  | .ticking stage =>
      .ticking (tickFault (options.code process.version) stage)
  | .resetting _ => .ticking .idle

/-- A process with another activity. -/
def Fleet.setActivity
    (fleet : Fleet Source Values)
    (index : Nat)
    (process : IndexerProcess)
    (activity : Activity) : Fleet Source Values :=
  { fleet with
    processes :=
      fleet.processes.set index { process with activity := activity } }

def fleetStep
    (fleet : Fleet Source Values) :
    FleetEvent Event → Option (Fleet Source Values)
  | .source event =>
      (system.step fleet.source event).map fun source =>
        { fleet with source }
  | .boot version =>
      some { fleet with
        processes :=
          fleet.processes ++ [{ version, activity := .migrating .ensuring }] }
  | .advance index now =>
      fleet.processes[index]?.map fun process =>
        let (db, activity) :=
          process.advance options (system.store fleet.source) fleet.db
            fleet.nextVersionId now
        { fleet.setActivity index process activity with
          db := db
          nextVersionId := fleet.nextVersionId + 1 }
  | .reset index kind =>
      (fleet.processes[index]?.filter fun process =>
          process.activity = .ticking .idle).map fun process =>
        fleet.setActivity index process (.resetting kind.start)
  | .fault index =>
      fleet.processes[index]?.map fun process =>
        fleet.setActivity index process (process.afterFault options)
  | .stop index =>
      fleet.processes[index]?.map fun process =>
        fleet.setActivity index process .stopped

end Step

section Moves

variable {Source Event Decoded Values : Type}

/-- The statements of a process, with what each leaves. -/
inductive ProcessMove
    (options : FleetOptions Decoded Values)
    (store : Store)
    (db : IndexerDb Values)
    (versionId : Nat)
    (now : Int)
    (version : Nat) :
    Activity → IndexerDb Values → Activity → Prop where
  | stopped :
      ProcessMove options store db versionId now version
        .stopped db .stopped
  | tick
      {stage stage' : TickStage}
      {next : IndexerDb Values}
      (move :
        TickMove (options.ticks version) store db now stage next stage') :
      ProcessMove options store db versionId now version
        (.ticking stage) next (.ticking stage')
  | ensured :
      ProcessMove options store db versionId now version
        (.migrating .ensuring)
        { db with schema := db.schema.createIfAbsent }
        (.migrating .reading)
  | readExisting :
      ProcessMove options store db versionId now version
        (.migrating .reading) db
        (.migrating (.switching db.cursors.getCurrentCursor))
  | switched
      (existing : Option HandlerCursor)
      (cursors : HandlerCursors)
      (committed :
        db.cursors.switchGeneration version versionId now existing =
          some cursors) :
      ProcessMove options store db versionId now version
        (.migrating (.switching existing)) { db with cursors }
        (.migrating .migratingTable)
  | tableMigrated
      (schema : HandlerSchema Values)
      (migrated : db.schema.migrate = some schema) :
      ProcessMove options store db versionId now version
        (.migrating .migratingTable) { db with schema } (.ticking .idle)
  | migrationThrew
      (stage : MigrateStage) :
      ProcessMove options store db versionId now version
        (.migrating stage) db .stopped
  | dropped :
      ProcessMove options store db versionId now version
        (.resetting .dropping) { db with schema := .absent }
        (.resetting .deletingCursors)
  | cursorsDeleted :
      ProcessMove options store db versionId now version
        (.resetting .deletingCursors)
        { db with cursors := db.cursors.deleteAllCursors }
        (.resetting .creating)
  | created
      (isAbsent : db.schema = .absent) :
      ProcessMove options store db versionId now version
        (.resetting .creating) { db with schema := .created }
        (.resetting .migratingTable)
  | resetMigrated
      (schema : HandlerSchema Values)
      (migrated : db.schema.migrate = some schema) :
      ProcessMove options store db versionId now version
        (.resetting .migratingTable) { db with schema }
        (.ticking .idle)
  | readCurrent
      (current : HandlerCursor)
      (isCurrent : db.cursors.getCurrentCursor = some current) :
      ProcessMove options store db versionId now version
        (.resetting .readingCurrent) db
        (.resetting (.deletingVersion current.versionId))
  | versionDeleted
      (deleted : Nat)
      (schema : HandlerSchema Values)
      (committed : db.schema.deleteVersion deleted = some schema) :
      ProcessMove options store db versionId now version
        (.resetting (.deletingVersion deleted))
        { cursors := db.cursors.deleteCursor deleted, schema }
        (.ticking .idle)
  | resetEnded
      (stage : ResetStage)
      (unmarked : stage ≠ .deletingCursors) :
      ProcessMove options store db versionId now version
        (.resetting stage) db (.ticking .idle)

/-- Every advance of a process is one of its statements. -/
theorem advance_move
    (options : FleetOptions Decoded Values)
    (process : IndexerProcess)
    (store : Store)
    (db : IndexerDb Values)
    (versionId : Nat)
    (now : Int) :
    ProcessMove options store db versionId now process.version
      process.activity
      (process.advance options store db versionId now).1
      (process.advance options store db versionId now).2 := by
  obtain ⟨version, activity⟩ := process
  cases activity with
  | stopped =>
      exact .stopped
  | migrating stage =>
      cases stage with
      | ensuring =>
          exact .ensured
      | reading =>
          exact .readExisting
      | switching existing =>
          simp only [IndexerProcess.advance, migrateAdvance]
          cases committed :
              db.cursors.switchGeneration version versionId now
                existing with
          | none =>
              exact .migrationThrew _
          | some cursors =>
              exact .switched existing cursors committed
      | migratingTable =>
          simp only [IndexerProcess.advance, migrateAdvance]
          cases migrated : db.schema.migrate with
          | none =>
              exact .migrationThrew _
          | some schema =>
              exact .tableMigrated schema migrated
  | ticking stage =>
      exact .tick (tickAdvance_move (options.ticks version) store db now
        stage)
  | resetting stage =>
      cases stage with
      | dropping =>
          exact .dropped
      | deletingCursors =>
          exact .cursorsDeleted
      | creating =>
          simp only [IndexerProcess.advance, resetAdvance]
          cases isSchema : db.schema with
          | absent =>
              exact .created isSchema
          | created | posts _ =>
              exact .resetEnded _ (by decide)
      | migratingTable =>
          simp only [IndexerProcess.advance, resetAdvance]
          cases migrated : db.schema.migrate with
          | none =>
              exact .resetEnded _ (by decide)
          | some schema =>
              exact .resetMigrated schema migrated
      | readingCurrent =>
          simp only [IndexerProcess.advance, resetAdvance]
          cases isCurrent : db.cursors.getCurrentCursor with
          | none =>
              exact .resetEnded _ (by decide)
          | some current =>
              exact .readCurrent current isCurrent
      | deletingVersion deleted =>
          simp only [IndexerProcess.advance, resetAdvance]
          cases committed : db.schema.deleteVersion deleted with
          | none =>
              exact .resetEnded _ (by simp)
          | some schema =>
              exact .versionDeleted deleted schema committed

/-- The cursor a process carries in memory. -/
def Activity.carried? : Activity → Option HandlerCursor
  | .ticking stage => stage.forward?
  | _ => none

variable {system : SourceSystem Source Event}
variable {options : FleetOptions Decoded Values}

/-- The processes after one of them changed. -/
theorem mem_setActivity
    {fleet : Fleet Source Values}
    {index : Nat}
    {process other : IndexerProcess}
    {activity : Activity}
    (member :
      other ∈ (fleet.setActivity index process activity).processes) :
    other ∈ fleet.processes ∨
      other = { process with activity := activity } :=
  List.mem_or_eq_of_mem_set member

/-- A failed statement carries no other cursor than before. -/
theorem carried?_afterFault
    (process : IndexerProcess)
    {forward : HandlerCursor}
    (carried :
      (process.afterFault options).carried? = some forward) :
    process.activity.carried? = some forward := by
  unfold IndexerProcess.afterFault at carried
  cases isActivity : process.activity with
  | stopped | migrating _ | resetting _ =>
      rw [isActivity] at carried
      cases carried
  | ticking stage =>
      rw [isActivity] at carried
      exact forward?_tickFault _ carried

end Moves

end Bam
