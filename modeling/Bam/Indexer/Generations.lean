import Bam.Indexer.Deployment
import Bam.Indexer.Fleet

namespace Bam

/-!
# Generations under a rolling deploy

Processes of several handler versions migrate and tick over one database.  A
tick takes over whatever generation is current, so a row is written by the
version of its generation exactly if no tick projects into the generation of
another version.
-/

section Deploy

variable {Source Event Decoded Values : Type}
variable (system : SourceSystem Source Event)
variable (options : FleetOptions Decoded Values)

/-- A step of a deployment, in which nobody resets. -/
def deployStep
    (fleet : Fleet Source Values) :
    FleetEvent Event → Option (Fleet Source Values)
  | .reset _ _ => none
  | event => fleetStep system options fleet event

/-- Every row was written by the version of its generation. -/
def Fleet.Attributed (fleet : Fleet Source Values) : Prop :=
  ∀ projected ∈ fleet.db.schema.rows,
    ∃ generation,
      fleet.db.cursors.get? projected.versionId = some generation ∧
        generation.handlerVersion = projected.projectedBy

/-- At most one generation is current. -/
def Fleet.OneCurrent (fleet : Fleet Source Values) : Prop :=
  ∀ first ∈ fleet.db.cursors.table.rows,
    ∀ second ∈ fleet.db.cursors.table.rows,
      first.isCurrent = true → second.isCurrent = true → first = second

/-- The generation has been superseded. -/
def Fleet.Superseded
    (fleet : Fleet Source Values)
    (versionId : Nat) : Prop :=
  ∃ generation,
    fleet.db.cursors.get? versionId = some generation ∧
      generation.isCurrent = false

/-- What a superseded generation is left with: it stays superseded and gains no
row. -/
def Fleet.Frozen
    (fleet later : Fleet Source Values)
    (versionId : Nat) : Prop :=
  later.Superseded versionId ∧
    ∀ projected ∈ later.db.schema.rows,
      projected.versionId = versionId →
        projected ∈ fleet.db.schema.rows

/-- The integrity of generations along a run. -/
structure GenerationIntegrity
    (start : Fleet Source Values)
    (events : List (FleetEvent Event)) : Prop where
  attributed :
    Runs.AllStates (deployStep system options) Fleet.Attributed start events
  oneCurrent :
    Runs.AllStates (deployStep system options) Fleet.OneCurrent start events
  frozen :
    ∀ leading between trailing fleet later,
      events = leading ++ between ++ trailing →
      Runs.exec? (deployStep system options) start leading = some fleet →
      Runs.exec? (deployStep system options) fleet between = some later →
      ∀ versionId,
        fleet.Superseded versionId → fleet.Frozen later versionId

/-- The projection of a row would commit: the handler accepts the row, its
table exists, and no other generation has become current. -/
def Fleet.Accepts
    (fleet : Fleet Source Values)
    (version : Nat)
    (forward : HandlerCursor)
    (row : MessageRow) : Prop :=
  (∃ decoded projected,
    (options.code version).decode row.contents = some decoded ∧
      (options.code version).projectRow forward.versionId row decoded =
        some projected) ∧
    (∃ table, fleet.db.schema = .posts table) ∧
    fleet.db.cursors.otherCurrent forward.versionId = false

/-- A tick projects into a generation of its own version only. -/
def deployAllows
    (fleet : Fleet Source Values) : FleetEvent Event → Prop
  | .advance index _ =>
      ∀ process,
        fleet.processes[index]? = some process →
        ∀ forward row rest,
          process.activity = .ticking (.projecting forward (row :: rest)) →
          fleet.Accepts options process.version forward row →
          forward.handlerVersion = process.version
  | _ => True

variable {system options}

/-- A tick writes the cursor it carries back. -/
structure Rewritten
    (db : IndexerDb Values)
    (process : IndexerProcess)
    (forward cursor : HandlerCursor)
    (next : IndexerDb Values) : Prop where
  carried : process.activity.carried? = some forward
  sameVersion : cursor.versionId = forward.versionId
  sameHandler : cursor.handlerVersion = forward.handlerVersion
  sameFlag : cursor.isCurrent = forward.isCurrent
  upserted : db.cursors.upsertCursor cursor = some next.cursors

/-- What a statement of a process that does not reset does to the database. -/
inductive DeployEffect
    (options : FleetOptions Decoded Values)
    (db : IndexerDb Values)
    (versionId : Nat)
    (now : Int)
    (process : IndexerProcess)
    (next : IndexerDb Values) : Prop where
  | kept
      (cursors : next.cursors = db.cursors)
      (rows : ∀ row ∈ next.schema.rows, row ∈ db.schema.rows)
  | switched
      (existing : Option HandlerCursor)
      (committed :
        db.cursors.switchGeneration process.version versionId now
          existing = some next.cursors)
      (rows : ∀ row ∈ next.schema.rows, row ∈ db.schema.rows)
  | moved
      (forward cursor : HandlerCursor)
      (rewritten : Rewritten db process forward cursor next)
      (rows : ∀ row ∈ next.schema.rows, row ∈ db.schema.rows)
  | projected
      (forward cursor : HandlerCursor)
      (rewritten : Rewritten db process forward cursor next)
      (stored : ProjectedRow Values)
      (isStored : stored ∈ next.schema.rows)
      (ofGeneration : stored.versionId = forward.versionId)
      (ofProcess : stored.projectedBy = process.version)
      (rows :
        ∀ row ∈ next.schema.rows, row = stored ∨ row ∈ db.schema.rows)
      (row : MessageRow)
      (rest : List MessageRow)
      (isStage :
        process.activity = .ticking (.projecting forward (row :: rest)))
      (decoded : Decoded)
      (decodes :
        (options.code process.version).decode row.contents = some decoded)
      (committed :
        projectTxn (options.code process.version) db forward row decoded
          now = some next)

/-- The rows of a schema a migration leaves. -/
theorem rows_migrate
    {schema next : HandlerSchema Values}
    (migrated : schema.migrate = some next) :
    next.rows = schema.rows := by
  cases schema with
  | absent =>
      cases migrated
  | created | posts table =>
      cases migrated
      rfl

theorem rows_createIfAbsent
    (schema : HandlerSchema Values) :
    schema.createIfAbsent.rows = schema.rows := by
  cases schema <;> rfl

/-- The effect of a tick's transaction. -/
theorem deployEffect_tick
    {store : Store}
    {db next : IndexerDb Values}
    {versionId : Nat}
    {now : Int}
    {process : IndexerProcess}
    {stage stage' : TickStage}
    (isTicking : process.activity = .ticking stage)
    (move :
      TickMove (options.ticks process.version) store db now stage next
        stage') :
    DeployEffect options db versionId now process next := by
  have carries :
      ∀ forward, stage.forward? = some forward →
        process.activity.carried? = some forward := by
    intro forward isForward
    rw [isTicking]
    exact isForward
  cases move with
  | skip forward row rest _ undecodable committed =>
      obtain ⟨sameSchema, upserted⟩ := skipTxn_eq_some committed
      exact .moved forward (forward.advancedTo row now)
        ⟨carries forward rfl, rfl, rfl, rfl, upserted⟩
        fun row member => sameSchema ▸ member
  | project forward row rest decoded _ decodes committed =>
      obtain ⟨projected, table, stored, isProjected, isTable, sameKey, -,
        sameCode, isNext, upserted⟩ := projectTxn_eq_some committed
      obtain ⟨-, -, ofVersion, ofCode⟩ := projectRow_eq_some isProjected
      have sameId := congrArg Prod.fst sameKey
      simp only [ProjectedRow.key] at sameId
      refine .projected forward (forward.advancedTo row now)
        ⟨carries forward rfl, rfl, rfl, rfl, upserted⟩ stored ?_
        (sameId.trans ofVersion) ?_ ?_ row rest isTicking decoded decodes
        committed
      · rw [isNext]
        exact Table.mem_put.mpr (.inl rfl)
      · exact sameCode.trans
          (ofCode.trans (options.versioned process.version))
      · intro other member
        rw [isNext] at member
        rcases Table.mem_put.mp member with same | ⟨old, -⟩
        · exact .inl same
        · exact .inr (by
            rw [isTable]
            exact old)
  | evict forward entry rest _ committed =>
      obtain ⟨_, -, -, upserted⟩ := reorgTxn_eq_some committed
      exact .moved forward (forward.reorgedTo entry now)
        ⟨carries forward rfl, rfl, rfl, rfl, upserted⟩
        fun row member => ((mem_rows_reorgTxn committed row).mp member).1
  | _ => exact .kept rfl fun _ member => member

/-- The effect of a statement of a process that does not reset. -/
theorem deployEffect_advance
    {store : Store}
    {db : IndexerDb Values}
    {versionId : Nat}
    {now : Int}
    {process : IndexerProcess}
    (unreset : ∀ stage, process.activity ≠ .resetting stage) :
    DeployEffect options db versionId now process
      (process.advance options store db versionId now).1 := by
  have move := advance_move options process store db versionId now
  obtain ⟨version, activity⟩ := process
  simp only at move unreset
  generalize (IndexerProcess.advance options ⟨version, activity⟩ store db
    versionId now).1 = next at *
  generalize (IndexerProcess.advance options ⟨version, activity⟩ store db
    versionId now).2 = activity' at *
  cases move with
  | stopped | readExisting | migrationThrew _ =>
      exact .kept rfl fun _ member => member
  | tick move =>
      exact deployEffect_tick rfl move
  | ensured =>
      exact .kept rfl fun row member =>
        rows_createIfAbsent db.schema ▸ member
  | switched existing cursors committed =>
      exact .switched existing committed fun _ member => member
  | tableMigrated schema migrated =>
      exact .kept rfl fun row member => rows_migrate migrated ▸ member
  | dropped | cursorsDeleted | created _ | resetMigrated _ _
  | readCurrent _ _ | versionDeleted _ _ _ | resetEnded _ _ =>
      exact absurd rfl (unreset _)

/-- What every step of a deployment keeps. -/
structure Fleet.Deployed (fleet : Fleet Source Values) : Prop where
  unreset :
    ∀ process ∈ fleet.processes,
      ∀ stage, process.activity ≠ .resetting stage
  carried :
    ∀ process ∈ fleet.processes,
      ∀ forward, process.activity.carried? = some forward →
        forward.isCurrent = true ∧
          ∃ generation,
            fleet.db.cursors.get? forward.versionId = some generation ∧
              generation.handlerVersion = forward.handlerVersion
  bootstrapped :
    ∀ versionId generation,
      fleet.db.cursors.get? versionId = some generation →
        ∃ current, fleet.db.cursors.getCurrentCursor = some current
  fresh :
    ∀ versionId generation,
      fleet.db.cursors.get? versionId = some generation →
        versionId < fleet.nextVersionId
  known :
    ∀ projected ∈ fleet.db.schema.rows,
      ∃ generation,
        fleet.db.cursors.get? projected.versionId = some generation

theorem deployed_initial
    (source : Source) :
    (Fleet.initial source : Fleet Source Values).Deployed where
  unreset _ member := absurd member List.not_mem_nil
  carried _ member := absurd member List.not_mem_nil
  bootstrapped _ _ found :=
    absurd (Table.mem_of_get? found) List.not_mem_nil
  fresh _ _ found := absurd (Table.mem_of_get? found) List.not_mem_nil
  known _ member := absurd member List.not_mem_nil

/-- A generation that is not current cannot be written as current beside the
current one. -/
theorem current_of_upserted
    {cursors next : HandlerCursors}
    {cursor current generation : HandlerCursor}
    (upserted : cursors.upsertCursor cursor = some next)
    (flagged : cursor.isCurrent = true)
    (isCurrent : cursors.getCurrentCursor = some current)
    (found : cursors.get? cursor.versionId = some generation) :
    generation.isCurrent = true := by
  obtain ⟨foundCurrent, currentFlag⟩ :=
    HandlerCursors.getCurrentCursor_eq_some_iff.mp isCurrent
  have noOther := (HandlerCursors.upsertCursor_eq_some upserted).2 flagged
  have alone := List.any_eq_false.mp noOther current
    (Table.mem_of_get? foundCurrent)
  by_cases same : current.versionId = cursor.versionId
  · rw [same] at foundCurrent
    cases foundCurrent.symm.trans found
    exact currentFlag
  · simp [currentFlag, same] at alone

/-- A generation keeps its handler version, and once superseded its state. -/
structure Continues (generation later : HandlerCursor) : Prop where
  sameHandler : later.handlerVersion = generation.handlerVersion
  frozen : generation.isCurrent = false → later.isCurrent = false

theorem continues_rewritten
    {fleet : Fleet Source Values}
    {process : IndexerProcess}
    {forward cursor : HandlerCursor}
    {next : IndexerDb Values}
    (deployed : fleet.Deployed)
    (member : process ∈ fleet.processes)
    (rewritten : Rewritten fleet.db process forward cursor next)
    {versionId : Nat}
    {generation : HandlerCursor}
    (found : fleet.db.cursors.get? versionId = some generation) :
    ∃ later,
      next.cursors.get? versionId = some later ∧
        Continues generation later := by
  obtain ⟨flagged, carried, isCarried, sameHandler⟩ :=
    deployed.carried process member forward rewritten.carried
  rw [HandlerCursors.get?_upsertCursor rewritten.upserted]
  by_cases same : cursor.versionId = versionId
  · subst same
    rw [rewritten.sameVersion] at found
    cases isCarried.symm.trans found
    refine ⟨cursor, if_pos rfl,
      rewritten.sameHandler.trans sameHandler.symm, fun wasFrozen => ?_⟩
    obtain ⟨current, isCurrent⟩ := deployed.bootstrapped _ _ found
    rw [← rewritten.sameVersion] at found
    rw [current_of_upserted rewritten.upserted
      (rewritten.sameFlag.trans flagged) isCurrent found] at wasFrozen
    cases wasFrozen
  · exact ⟨generation, (if_neg same).trans found, rfl, id⟩

theorem continues_switched
    {fleet : Fleet Source Values}
    {handlerVersion : Nat}
    {now : Int}
    {existing : Option HandlerCursor}
    {next : HandlerCursors}
    (deployed : fleet.Deployed)
    (committed :
      fleet.db.cursors.switchGeneration handlerVersion
        fleet.nextVersionId now existing = some next)
    {versionId : Nat}
    {generation : HandlerCursor}
    (found : fleet.db.cursors.get? versionId = some generation) :
    ∃ later,
      next.get? versionId = some later ∧ Continues generation later := by
  rcases switchGeneration_eq_some committed with
    same | ⟨before, isBefore, upserted⟩
  · rw [same]
    exact ⟨generation, found, rfl, id⟩
  · have older :
        (HandlerCursor.genesis handlerVersion fleet.nextVersionId
          now).versionId ≠ versionId :=
      Nat.ne_of_gt (deployed.fresh versionId generation found)
    rw [HandlerCursors.get?_upsertCursor upserted, if_neg older]
    rcases isBefore with rfl | rfl
    · exact ⟨generation, found, rfl, id⟩
    · rw [HandlerCursors.get?_supersedeCurrent, found, Option.map_some]
      refine ⟨_, rfl, ?_, ?_⟩
      · split <;> rfl
      · intro wasFrozen
        rw [if_neg (by simp [wasFrozen])]
        exact wasFrozen

/-- No statement of a deployment loses a generation. -/
theorem continues_effect
    {fleet : Fleet Source Values}
    {process : IndexerProcess}
    {now : Int}
    {next : IndexerDb Values}
    (deployed : fleet.Deployed)
    (member : process ∈ fleet.processes)
    (effect :
      DeployEffect options fleet.db fleet.nextVersionId now process next)
    {versionId : Nat}
    {generation : HandlerCursor}
    (found : fleet.db.cursors.get? versionId = some generation) :
    ∃ later,
      next.cursors.get? versionId = some later ∧
        Continues generation later := by
  cases effect with
  | kept cursors rows =>
      rw [cursors]
      exact ⟨generation, found, rfl, id⟩
  | switched existing committed rows =>
      exact continues_switched deployed committed found
  | moved forward cursor rewritten rows =>
      exact continues_rewritten deployed member rewritten found
  | projected forward cursor rewritten _ _ _ _ _ _ _ _ _ _ _ =>
      exact continues_rewritten deployed member rewritten found

/-- A process that does not reset does not start to. -/
theorem unreset_advance
    {store : Store}
    {db : IndexerDb Values}
    {versionId : Nat}
    {now : Int}
    {process : IndexerProcess}
    (unreset : ∀ stage, process.activity ≠ .resetting stage)
    (stage : ResetStage) :
    (process.advance options store db versionId now).2 ≠
      .resetting stage := by
  have move := advance_move options process store db versionId now
  generalize (process.advance options store db versionId now).1 = next at *
  generalize (process.advance options store db versionId now).2 = activity'
    at *
  obtain ⟨version, activity⟩ := process
  simp only at move unreset
  cases move with
  | dropped | cursorsDeleted | created _ | resetMigrated _ _
  | readCurrent _ _ | versionDeleted _ _ _ | resetEnded _ _ =>
      exact absurd rfl (unreset _)
  | _ =>
      intro resets
      cases resets

/-- The cursor a process carries after a statement is the one it carried, the
current one it has read, or the one it has written. -/
theorem carried?_advance
    {store : Store}
    {db : IndexerDb Values}
    {versionId : Nat}
    {now : Int}
    {process : IndexerProcess}
    {forward : HandlerCursor}
    (carried :
      (process.advance options store db versionId now).2.carried? =
        some forward) :
    (process.activity.carried? = some forward ∧
        (process.advance options store db versionId now).1.cursors =
          db.cursors) ∨
      (db.cursors.getCurrentCursor = some forward ∧
        (process.advance options store db versionId now).1.cursors =
          db.cursors) ∨
      ∃ before,
        Rewritten db process before forward
          (process.advance options store db versionId now).1 := by
  have move := advance_move options process store db versionId now
  generalize (process.advance options store db versionId now).1 = next at *
  generalize (process.advance options store db versionId now).2 = activity'
    at *
  obtain ⟨version, activity⟩ := process
  simp only at move carried ⊢
  cases move with
  | tick move =>
      cases move with
      | read current isCurrent =>
          cases carried
          exact .inr (.inl ⟨isCurrent, rfl⟩)
      | list _ | projected _ | projectRefused _ _ _ _ _ _
      | listReorged _ =>
          exact .inl ⟨carried, rfl⟩
      | skip before row rest _ undecodable committed =>
          cases carried
          exact .inr (.inr ⟨before, rfl, rfl, rfl, rfl,
            (skipTxn_eq_some committed).2⟩)
      | project before row rest decoded _ decodes committed =>
          cases carried
          obtain ⟨_, _, _, -, -, -, -, -, -, upserted⟩ :=
            projectTxn_eq_some committed
          exact .inr (.inr ⟨before, rfl, rfl, rfl, rfl, upserted⟩)
      | evict before entry rest _ committed =>
          cases carried
          obtain ⟨_, -, -, upserted⟩ := reorgTxn_eq_some committed
          exact .inr (.inr ⟨before, rfl, rfl, rfl, rfl, upserted⟩)
      | absent _ | skipRefused _ _ _ _ _ | finish _
      | evictRefused _ _ _ _ =>
          cases carried
  | _ => cases carried

/-- The cursor a tick writes back is current. -/
theorem Rewritten.current
    {fleet : Fleet Source Values}
    {process : IndexerProcess}
    {forward cursor : HandlerCursor}
    {next : IndexerDb Values}
    (rewritten : Rewritten fleet.db process forward cursor next)
    (deployed : fleet.Deployed)
    (member : process ∈ fleet.processes) :
    next.cursors.getCurrentCursor = some cursor :=
  HandlerCursors.getCurrentCursor_upsertCursor rewritten.upserted
    (rewritten.sameFlag.trans
      (deployed.carried process member forward rewritten.carried).1)

section Effect

variable {fleet : Fleet Source Values}
variable {process : IndexerProcess}
variable {now : Int}
variable {next : IndexerDb Values}

/-- Where there are generations, one is current. -/
theorem bootstrapped_effect
    (deployed : fleet.Deployed)
    (member : process ∈ fleet.processes)
    (effect :
      DeployEffect options fleet.db fleet.nextVersionId now process next)
    {versionId : Nat}
    {generation : HandlerCursor}
    (found : next.cursors.get? versionId = some generation) :
    ∃ current, next.cursors.getCurrentCursor = some current := by
  cases effect with
  | kept cursors rows =>
      rw [cursors] at found ⊢
      exact deployed.bootstrapped versionId generation found
  | switched existing committed rows =>
      rcases switchGeneration_eq_some committed with
        same | ⟨before, -, upserted⟩
      · rw [same] at found ⊢
        exact deployed.bootstrapped versionId generation found
      · exact ⟨_, HandlerCursors.getCurrentCursor_upsertCursor upserted
          rfl⟩
  | moved forward cursor rewritten rows =>
      exact ⟨cursor, rewritten.current deployed member⟩
  | projected forward cursor rewritten _ _ _ _ _ _ _ _ _ _ _ =>
      exact ⟨cursor, rewritten.current deployed member⟩

/-- Version ids are used in order. -/
theorem fresh_effect
    (deployed : fleet.Deployed)
    (member : process ∈ fleet.processes)
    (effect :
      DeployEffect options fleet.db fleet.nextVersionId now process next)
    {versionId : Nat}
    {generation : HandlerCursor}
    (found : next.cursors.get? versionId = some generation) :
    versionId ≤ fleet.nextVersionId := by
  have written :
      ∀ forward cursor,
        Rewritten fleet.db process forward cursor next →
          versionId ≤ fleet.nextVersionId := by
    intro forward cursor rewritten
    rw [HandlerCursors.get?_upsertCursor rewritten.upserted] at found
    split at found
    · rename_i same
      obtain ⟨-, carried, isCarried, -⟩ :=
        deployed.carried process member forward rewritten.carried
      rw [← same, rewritten.sameVersion]
      exact Nat.le_of_lt (deployed.fresh _ _ isCarried)
    · exact Nat.le_of_lt (deployed.fresh _ _ found)
  cases effect with
  | kept cursors rows =>
      rw [cursors] at found
      exact Nat.le_of_lt (deployed.fresh _ _ found)
  | switched existing committed rows =>
      rcases switchGeneration_eq_some committed with
        same | ⟨before, isBefore, upserted⟩
      · rw [same] at found
        exact Nat.le_of_lt (deployed.fresh _ _ found)
      · rw [HandlerCursors.get?_upsertCursor upserted] at found
        split at found
        · rename_i same
          exact Nat.le_of_eq same.symm
        · rcases isBefore with rfl | rfl
          · exact Nat.le_of_lt (deployed.fresh _ _ found)
          · rw [HandlerCursors.get?_supersedeCurrent] at found
            obtain ⟨old, isOld, -⟩ := Option.map_eq_some_iff.mp found
            exact Nat.le_of_lt (deployed.fresh _ _ isOld)
  | moved forward cursor rewritten rows =>
      exact written forward cursor rewritten
  | projected forward cursor rewritten _ _ _ _ _ _ _ _ _ _ _ =>
      exact written forward cursor rewritten

/-- Every row belongs to a generation. -/
theorem known_effect
    (deployed : fleet.Deployed)
    (member : process ∈ fleet.processes)
    (effect :
      DeployEffect options fleet.db fleet.nextVersionId now process next)
    {projected : ProjectedRow Values}
    (isProjected : projected ∈ next.schema.rows) :
    ∃ generation,
      next.cursors.get? projected.versionId = some generation := by
  have older :
      projected ∈ fleet.db.schema.rows →
        ∃ generation,
          next.cursors.get? projected.versionId = some generation := by
    intro old
    obtain ⟨generation, isGeneration⟩ := deployed.known projected old
    obtain ⟨later, isLater, -⟩ :=
      continues_effect deployed member effect isGeneration
    exact ⟨later, isLater⟩
  cases effect with
  | kept _ rows | switched _ _ rows | moved _ _ _ rows =>
      exact older (rows projected isProjected)
  | projected forward cursor rewritten stored isStored ofGeneration
      ofProcess rows _ _ _ _ _ _ =>
      rcases rows projected isProjected with rfl | old
      · refine ⟨cursor, ?_⟩
        rw [ofGeneration, ← rewritten.sameVersion,
          HandlerCursors.get?_upsertCursor rewritten.upserted,
          if_pos rfl]
      · exact older old

end Effect

/-- A statement of a process keeps the invariant. -/
theorem Fleet.Deployed.advance
    {fleet : Fleet Source Values}
    {store : Store}
    {index : Nat}
    {now : Int}
    {process : IndexerProcess}
    (deployed : fleet.Deployed)
    (found : fleet.processes[index]? = some process) :
    Fleet.Deployed {
      fleet.setActivity index process
        (process.advance options store fleet.db fleet.nextVersionId
          now).2 with
      db :=
        (process.advance options store fleet.db fleet.nextVersionId now).1
      nextVersionId := fleet.nextVersionId + 1 } := by
  have member := List.mem_of_getElem? found
  have unreset := deployed.unreset process member
  have effect :
      DeployEffect options fleet.db fleet.nextVersionId now process
        (process.advance options store fleet.db fleet.nextVersionId
          now).1 :=
    deployEffect_advance unreset
  constructor
  · intro other isOther
    rcases mem_setActivity isOther with old | rfl
    · exact deployed.unreset other old
    · exact unreset_advance unreset
  · intro other isOther forward carried
    rcases mem_setActivity isOther with old | rfl
    · obtain ⟨flagged, generation, isGeneration, sameHandler⟩ :=
        deployed.carried other old forward carried
      obtain ⟨later, isLater, goesOn⟩ :=
        continues_effect deployed member effect isGeneration
      exact ⟨flagged, later, isLater,
        goesOn.sameHandler.trans sameHandler⟩
    · rcases carried?_advance carried with
        ⟨wasCarried, same⟩ | ⟨isCurrent, same⟩ | ⟨before, rewritten⟩
      · simp only [same]
        exact deployed.carried process member forward wasCarried
      · simp only [same]
        obtain ⟨isFound, flagged⟩ :=
          HandlerCursors.getCurrentCursor_eq_some_iff.mp isCurrent
        exact ⟨flagged, forward, isFound, rfl⟩
      · refine ⟨rewritten.sameFlag.trans
            (deployed.carried process member before
              rewritten.carried).1, forward, ?_, rfl⟩
        simp only [HandlerCursors.get?_upsertCursor rewritten.upserted,
          if_true]
  · exact fun _ _ => bootstrapped_effect deployed member effect
  · exact fun _ _ isGeneration =>
      Nat.lt_succ_of_le (fresh_effect deployed member effect isGeneration)
  · exact fun _ => known_effect deployed member effect

/-- A process with an activity that carries no other cursor. -/
theorem Fleet.Deployed.setActivity
    {fleet : Fleet Source Values}
    {index : Nat}
    {process : IndexerProcess}
    {activity : Activity}
    (deployed : fleet.Deployed)
    (found : fleet.processes[index]? = some process)
    (unreset : ∀ stage, activity ≠ .resetting stage)
    (carried :
      ∀ forward, activity.carried? = some forward →
        process.activity.carried? = some forward) :
    (fleet.setActivity index process activity).Deployed := by
  have member := List.mem_of_getElem? found
  refine ⟨fun other isOther => ?_, fun other isOther => ?_,
    deployed.bootstrapped, deployed.fresh, deployed.known⟩
  · rcases mem_setActivity isOther with old | rfl
    · exact deployed.unreset other old
    · exact unreset
  · rcases mem_setActivity isOther with old | rfl
    · exact deployed.carried other old
    · exact fun forward isCarried =>
        deployed.carried process member forward
          (carried forward isCarried)

/-- A failed statement starts no reset. -/
theorem unreset_afterFault
    (process : IndexerProcess)
    (stage : ResetStage) :
    process.afterFault options ≠ .resetting stage := by
  unfold IndexerProcess.afterFault
  intro resets
  split at resets <;> cases resets

/-- Every step of a deployment keeps the invariant. -/
theorem deployed_deployStep
    {fleet next : Fleet Source Values}
    {event : FleetEvent Event}
    (deployed : fleet.Deployed)
    (taken : deployStep system options fleet event = some next) :
    next.Deployed := by
  cases event with
  | source event =>
      obtain ⟨source, -, rfl⟩ := Option.map_eq_some_iff.mp taken
      exact ⟨deployed.unreset, deployed.carried, deployed.bootstrapped,
        deployed.fresh, deployed.known⟩
  | boot version =>
      cases taken
      refine ⟨fun process member => ?_, fun process member => ?_,
        deployed.bootstrapped, deployed.fresh, deployed.known⟩
      · rcases List.mem_append.mp member with old | isNew
        · exact deployed.unreset process old
        · cases List.mem_singleton.mp isNew
          intro stage resets
          cases resets
      · rcases List.mem_append.mp member with old | isNew
        · exact deployed.carried process old
        · cases List.mem_singleton.mp isNew
          intro forward carried
          cases carried
  | advance index now =>
      obtain ⟨process, found, rfl⟩ := Option.map_eq_some_iff.mp taken
      exact deployed.advance found
  | reset index kind =>
      cases taken
  | fault index =>
      obtain ⟨process, found, rfl⟩ := Option.map_eq_some_iff.mp taken
      exact deployed.setActivity found (unreset_afterFault process)
        fun _ => carried?_afterFault process
  | stop index =>
      obtain ⟨process, found, rfl⟩ := Option.map_eq_some_iff.mp taken
      refine deployed.setActivity found (fun stage resets => ?_)
        fun forward carried => ?_
      · cases resets
      · cases carried

section Projection

variable {fleet : Fleet Source Values}
variable {process : IndexerProcess}
variable {forward : HandlerCursor}
variable {row : MessageRow}

/-- What is accepted commits. -/
theorem projectTxn_of_accepts
    (accepts : fleet.Accepts options process.version forward row)
    (now : Int) :
    ∃ decoded next,
      (options.code process.version).decode row.contents = some decoded ∧
        projectTxn (options.code process.version) fleet.db forward row
          decoded now = some next := by
  obtain ⟨⟨decoded, projected, decodes, isProjected⟩, ⟨table, isTable⟩,
    alone⟩ := accepts
  obtain ⟨schema, inserted⟩ :=
    HandlerSchema.insert_posts (options.code process.version).onConflict
      projected table
  rw [← isTable] at inserted
  obtain ⟨cursors, upserted⟩ :
      ∃ cursors,
        fleet.db.cursors.upsertCursor (forward.advancedTo row now) =
          some cursors :=
    HandlerCursors.upsertCursor_of_alone alone
  refine ⟨decoded, { cursors, schema }, decodes, ?_⟩
  simp only [projectTxn, isProjected, inserted, upserted, Option.map_some]

/-- What commits was accepted. -/
theorem accepts_of_projectTxn
    {decoded : Decoded}
    {now : Int}
    {next : IndexerDb Values}
    (flagged : forward.isCurrent = true)
    (decodes :
      (options.code process.version).decode row.contents = some decoded)
    (committed :
      projectTxn (options.code process.version) fleet.db forward row
        decoded now = some next) :
    fleet.Accepts options process.version forward row := by
  obtain ⟨projected, table, _, isProjected, isTable, -, -, -, -,
    upserted⟩ := projectTxn_eq_some committed
  exact ⟨⟨decoded, projected, decodes, isProjected⟩, ⟨table, isTable⟩,
    (HandlerCursors.upsertCursor_eq_some upserted).2 flagged⟩

end Projection

/-- A row of a generation of its own version stays one. -/
theorem attributed_kept
    {fleet : Fleet Source Values}
    {process : IndexerProcess}
    {now : Int}
    {next : IndexerDb Values}
    (deployed : fleet.Deployed)
    (good : fleet.Attributed)
    (member : process ∈ fleet.processes)
    (effect :
      DeployEffect options fleet.db fleet.nextVersionId now process next)
    {projected : ProjectedRow Values}
    (isProjected : projected ∈ fleet.db.schema.rows) :
    ∃ generation,
      next.cursors.get? projected.versionId = some generation ∧
        generation.handlerVersion = projected.projectedBy := by
  obtain ⟨generation, isGeneration, ofVersion⟩ :=
    good projected isProjected
  obtain ⟨later, isLater, goesOn⟩ :=
    continues_effect deployed member effect isGeneration
  exact ⟨later, isLater, goesOn.sameHandler.trans ofVersion⟩

/-- A step of a deployment keeps every row attributed exactly if it is
allowed. -/
theorem attributed_iff_allowed
    {fleet next : Fleet Source Values}
    {event : FleetEvent Event}
    (deployed : fleet.Deployed)
    (good : fleet.Attributed)
    (taken : deployStep system options fleet event = some next) :
    next.Attributed ↔ deployAllows options fleet event := by
  cases event with
  | source event =>
      obtain ⟨source, -, rfl⟩ := Option.map_eq_some_iff.mp taken
      exact ⟨fun _ => trivial, fun _ => good⟩
  | boot version =>
      cases taken
      exact ⟨fun _ => trivial, fun _ => good⟩
  | reset index kind =>
      cases taken
  | fault index | stop index =>
      obtain ⟨process, -, rfl⟩ := Option.map_eq_some_iff.mp taken
      exact ⟨fun _ => trivial, fun _ => good⟩
  | advance index now =>
      obtain ⟨process, found, rfl⟩ := Option.map_eq_some_iff.mp taken
      have member := List.mem_of_getElem? found
      have effect :
          DeployEffect options fleet.db fleet.nextVersionId now process
            (process.advance options (system.store fleet.source) fleet.db
              fleet.nextVersionId now).1 :=
        deployEffect_advance (deployed.unreset process member)
      constructor
      · intro attributed process' found' forward row rest isStage accepts
        cases found.symm.trans found'
        obtain ⟨decoded, written, decodes, committed⟩ :=
          projectTxn_of_accepts accepts now
        have isNext :
            (process.advance options (system.store fleet.source) fleet.db
              fleet.nextVersionId now).1 = written := by
          simp only [IndexerProcess.advance, isStage, tickAdvance,
            projectOne, FleetOptions.ticks, decodes, committed]
        obtain ⟨projected, table, stored, isProjected, -, sameKey, -,
          sameCode, isPosts, upserted⟩ := projectTxn_eq_some committed
        obtain ⟨-, -, ofVersion, ofCode⟩ := projectRow_eq_some isProjected
        have sameId := congrArg Prod.fst sameKey
        simp only [ProjectedRow.key] at sameId
        have isStored : stored ∈ written.schema.rows := by
          rw [isPosts]
          exact Table.mem_put.mpr (.inl rfl)
        obtain ⟨generation, isGeneration, ofHandler⟩ :=
          attributed stored (by
            simp only [isNext]
            exact isStored)
        have sameGeneration :
            (forward.advancedTo row now).versionId = forward.versionId :=
          rfl
        simp only [isNext] at isGeneration
        rw [sameId, ofVersion, HandlerCursors.get?_upsertCursor upserted,
          if_pos sameGeneration, Option.some.injEq] at isGeneration
        subst isGeneration
        exact ofHandler.trans (sameCode.trans
          (ofCode.trans (options.versioned process.version)))
      · intro allowed projected isProjected
        have kept :=
          @attributed_kept _ _ _ _ _ _ now _ deployed good member effect
        cases effect with
        | kept _ rows | switched _ _ rows | moved _ _ _ rows =>
            exact kept (rows projected isProjected)
        | projected forward cursor rewritten stored isStored ofGeneration
            ofProcess rows row rest isStage decoded decodes committed =>
            rcases rows projected isProjected with rfl | old
            · have flagged :=
                (deployed.carried process member forward
                  rewritten.carried).1
              have sameVersion :=
                allowed process found forward row rest isStage
                  (accepts_of_projectTxn flagged decodes committed)
              refine ⟨cursor, ?_, ?_⟩
              · simp only
                rw [ofGeneration, ← rewritten.sameVersion,
                  HandlerCursors.get?_upsertCursor rewritten.upserted,
                  if_pos rfl]
              · exact rewritten.sameHandler.trans
                  (sameVersion.trans ofProcess.symm)
            · exact kept old

/-- A step of a deployment freezes what is superseded. -/
theorem frozen_deployStep
    {fleet next : Fleet Source Values}
    {event : FleetEvent Event}
    (deployed : fleet.Deployed)
    (taken : deployStep system options fleet event = some next)
    {versionId : Nat}
    (superseded : fleet.Superseded versionId) :
    fleet.Frozen next versionId := by
  cases event with
  | source event =>
      obtain ⟨source, -, rfl⟩ := Option.map_eq_some_iff.mp taken
      exact ⟨superseded, fun _ member _ => member⟩
  | boot version =>
      cases taken
      exact ⟨superseded, fun _ member _ => member⟩
  | reset index kind =>
      cases taken
  | fault index | stop index =>
      obtain ⟨process, -, rfl⟩ := Option.map_eq_some_iff.mp taken
      exact ⟨superseded, fun _ member _ => member⟩
  | advance index now =>
      obtain ⟨process, found, rfl⟩ := Option.map_eq_some_iff.mp taken
      have member := List.mem_of_getElem? found
      have effect :
          DeployEffect options fleet.db fleet.nextVersionId now process
            (process.advance options (system.store fleet.source) fleet.db
              fleet.nextVersionId now).1 :=
        deployEffect_advance (deployed.unreset process member)
      obtain ⟨generation, isGeneration, notCurrent⟩ := superseded
      obtain ⟨later, isLater, goesOn⟩ :=
        continues_effect deployed member effect isGeneration
      refine ⟨⟨later, isLater, goesOn.frozen notCurrent⟩, ?_⟩
      intro projected isProjected ofVersion
      cases effect with
      | kept _ rows | switched _ _ rows | moved _ _ _ rows =>
          exact rows projected isProjected
      | projected forward cursor rewritten stored isStored ofGeneration
          ofProcess rows _ _ _ _ _ _ =>
          rcases rows projected isProjected with rfl | old
          · have sameCursor : cursor.versionId = versionId :=
              rewritten.sameVersion.trans
                (ofGeneration.symm.trans ofVersion)
            obtain ⟨current, isCurrent⟩ :=
              deployed.bootstrapped versionId generation isGeneration
            rw [current_of_upserted rewritten.upserted
              (rewritten.sameFlag.trans
                (deployed.carried process member forward
                  rewritten.carried).1)
              isCurrent (sameCursor.symm ▸ isGeneration)] at notCurrent
            cases notCurrent
          · exact old

/-- A run of a deployment freezes what is superseded. -/
theorem frozen_run
    {fleet later : Fleet Source Values}
    {events : List (FleetEvent Event)}
    (deployed : fleet.Deployed)
    (executed :
      Runs.exec? (deployStep system options) fleet events = some later)
    {versionId : Nat}
    (superseded : fleet.Superseded versionId) :
    fleet.Frozen later versionId := by
  induction events generalizing fleet with
  | nil =>
      simp only [Runs.exec?, Option.some.injEq] at executed
      subst executed
      exact ⟨superseded, fun _ member _ => member⟩
  | cons event rest inductionHypothesis =>
      simp only [Runs.exec?] at executed
      cases taken : deployStep system options fleet event with
      | none =>
          simp [taken] at executed
      | some next =>
          simp only [taken] at executed
          obtain ⟨stays, rows⟩ :=
            frozen_deployStep deployed taken superseded
          obtain ⟨isFinal, laterRows⟩ :=
            inductionHypothesis (deployed_deployStep deployed taken)
              executed stays
          exact ⟨isFinal, fun projected member ofVersion =>
            rows projected (laterRows projected member ofVersion)
              ofVersion⟩

/-- Generations keep their integrity along a run of migrating and ticking
processes exactly if no tick projects into a generation of another version. -/
theorem generationIntegrity_iff_allowed
    (system : SourceSystem Source Event)
    (options : FleetOptions Decoded Values)
    (source : Source)
    (events : List (FleetEvent Event)) :
    GenerationIntegrity system options
        (Fleet.initial source : Fleet Source Values) events ↔
      Runs.AllSteps (deployStep system options) (deployAllows options)
        (Fleet.initial source) events := by
  have exactly :
      Runs.AllStates (deployStep system options) Fleet.Attributed
          (Fleet.initial source : Fleet Source Values) events ↔
        Runs.AllSteps (deployStep system options) (deployAllows options)
          (Fleet.initial source) events :=
    Runs.allStates_iff_allSteps
      (fun deployed taken => deployed_deployStep deployed taken)
      (fun deployed good taken =>
        attributed_iff_allowed deployed good taken)
      events (deployed_initial source)
      fun _ member => absurd member List.not_mem_nil
  refine ⟨fun integrity => exactly.mp integrity.attributed,
    fun allowed => ⟨exactly.mpr allowed, ?_, ?_⟩⟩
  · refine (exactly.mpr allowed).mono fun fleet _ => ?_
    exact fleet.db.cursors.oneCurrent
  · intro leading between trailing fleet later _ reached executed
      versionId superseded
    have deployed : fleet.Deployed :=
      Runs.Reachable.invariant
        (fun isDeployed taken => deployed_deployStep isDeployed taken)
        (deployed_initial source) ⟨leading, reached⟩
    exact frozen_run deployed executed superseded

end Deploy

/-- Two versions of a handler that projects every message of tag 5. -/
def sampleFleet : FleetOptions Unit Unit where
  chainId := 1
  batchSize := 10
  code version := { sampleHandler with version := version }
  versioned _ := rfl

/-- The statements of a migration. -/
def migration (index : Nat) : List (FleetEvent SystemEvent) :=
  List.replicate 4 (.advance index 0)

/-- A process of version 1 ticks on after a process of version 2 migrated. -/
def rollingDeploy : List (FleetEvent SystemEvent) :=
  .source (.processBatch (sampleBatch 1 [3])) ::
    .boot 1 :: migration 0 ++ .boot 2 :: migration 1 ++
      List.replicate 3 (.advance 0 0)

/-- The old process projects into the generation of the new one. -/
theorem old_process_projects_into_new_generation :
    ¬ GenerationIntegrity (serviceSource sampleConfig) sampleFleet
      (Fleet.initial World.initial) rollingDeploy := by
  intro integrity
  have view :
      (Runs.exec? (deployStep (serviceSource sampleConfig) sampleFleet)
        (Fleet.initial World.initial) rollingDeploy).map
          (fun fleet =>
            (fleet.db.schema.rows.map fun projected =>
                (projected.versionId, projected.projectedBy),
              (fleet.db.cursors.get? 6).map
                HandlerCursor.handlerVersion)) =
        some ([(6, 1)], some 2) := by
    decide +kernel
  obtain ⟨final, executed, isView⟩ := Option.map_eq_some_iff.mp view
  obtain ⟨rows, handlerVersion⟩ := Prod.mk.inj isView
  obtain ⟨projected, isRow, facts⟩ := List.map_eq_singleton_iff.mp rows
  obtain ⟨ofVersion, ofCode⟩ := Prod.mk.inj facts
  obtain ⟨generation, found, same⟩ :=
    integrity.attributed.final executed projected
      (by rw [isRow]; exact List.mem_singleton_self projected)
  rw [ofVersion] at found
  rw [found, Option.map_some, Option.some.injEq, same, ofCode]
    at handlerVersion
  cases handlerVersion

end Bam
