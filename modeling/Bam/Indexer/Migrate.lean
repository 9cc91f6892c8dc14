import Bam.Indexer.Tick

namespace Bam

/-!
# Migrations and resets

`migrate`, `resetHandler`, `resetHandlerVersion` and `resetHandlerCurrent` for
one handler, cut at the statements they commit.  What throws ends the call.
-/

/-- What `migrate` does next. -/
inductive MigrateStage where
  /-- `CREATE SCHEMA IF NOT EXISTS`. -/
  | ensuring
  | reading
  | switching (existing : Option HandlerCursor)
  /-- `handler.migrate`. -/
  | migratingTable
  deriving Repr, DecidableEq

/-- What a reset does next. -/
inductive ResetStage where
  /-- `DROP SCHEMA IF EXISTS … CASCADE`. -/
  | dropping
  | deletingCursors
  /-- `CREATE SCHEMA`. -/
  | creating
  /-- `handler.migrate`. -/
  | migratingTable
  /-- The read of `resetHandlerCurrent`. -/
  | readingCurrent
  /-- The transaction that drops one generation. -/
  | deletingVersion (versionId : Nat)
  deriving Repr, DecidableEq

/-- What an indexer process is doing; between ticks it is `ticking .idle`. -/
inductive Activity where
  | stopped
  | migrating (stage : MigrateStage)
  | ticking (stage : TickStage)
  | resetting (stage : ResetStage)
  deriving Repr, DecidableEq

/-- The three resets. -/
inductive ResetKind where
  | handler
  | version (versionId : Nat)
  | current
  deriving Repr, DecidableEq

def ResetKind.start : ResetKind → ResetStage
  | .handler => .dropping
  | .version versionId => .deletingVersion versionId
  | .current => .readingCurrent

/-- The cursor writes of `migrate` over what it has read; `none` where the
unique index refuses them. -/
def HandlerCursors.switchGeneration
    (cursors : HandlerCursors)
    (handlerVersion versionId : Nat)
    (now : Int) : Option HandlerCursor → Option HandlerCursors
  | none =>
      cursors.upsertCursor (.genesis handlerVersion versionId now)
  | some existing =>
      if existing.handlerVersion = handlerVersion then some cursors
      else
        (cursors.supersedeCurrent now).upsertCursor
          (.genesis handlerVersion versionId now)

section Advance

variable {Values : Type}

/-- The next statement of `migrate`; a process whose migration throws exits. -/
def migrateAdvance
    (handlerVersion versionId : Nat)
    (db : IndexerDb Values)
    (now : Int) : MigrateStage → IndexerDb Values × Activity
  | .ensuring =>
      ({ db with schema := db.schema.createIfAbsent }, .migrating .reading)
  | .reading =>
      (db, .migrating (.switching db.cursors.getCurrentCursor))
  | .switching existing =>
      match db.cursors.switchGeneration handlerVersion versionId now
          existing with
      | none => (db, .stopped)
      | some cursors =>
          ({ db with cursors }, .migrating .migratingTable)
  | .migratingTable =>
      match db.schema.migrate with
      | none => (db, .stopped)
      | some schema => ({ db with schema }, .ticking .idle)

/-- The next statement of a reset. -/
def resetAdvance
    (db : IndexerDb Values) : ResetStage → IndexerDb Values × Activity
  | .dropping =>
      ({ db with schema := .absent }, .resetting .deletingCursors)
  | .deletingCursors =>
      ({ db with cursors := db.cursors.deleteAllCursors },
        .resetting .creating)
  | .creating =>
      match db.schema with
      | .absent =>
          ({ db with schema := .created }, .resetting .migratingTable)
      | _ => (db, .ticking .idle)
  | .migratingTable =>
      match db.schema.migrate with
      | none => (db, .ticking .idle)
      | some schema => ({ db with schema }, .ticking .idle)
  | .readingCurrent =>
      match db.cursors.getCurrentCursor with
      | none => (db, .ticking .idle)
      | some current =>
          (db, .resetting (.deletingVersion current.versionId))
  | .deletingVersion versionId =>
      match db.schema.deleteVersion versionId with
      | none => (db, .ticking .idle)
      | some schema =>
          ({ cursors := db.cursors.deleteCursor versionId, schema },
            .ticking .idle)

end Advance

/-- A switch keeps the generations, or puts a new one at genesis in place of the
current one. -/
theorem switchGeneration_eq_some
    {cursors next : HandlerCursors}
    {handlerVersion versionId : Nat}
    {now : Int}
    {existing : Option HandlerCursor}
    (switched :
      cursors.switchGeneration handlerVersion versionId now existing =
        some next) :
    next = cursors ∨
      ∃ before,
        (before = cursors ∨ before = cursors.supersedeCurrent now) ∧
          before.upsertCursor (.genesis handlerVersion versionId now) =
            some next := by
  unfold HandlerCursors.switchGeneration at switched
  split at switched
  · exact .inr ⟨cursors, .inl rfl, switched⟩
  · split at switched
    · cases switched
      exact .inl rfl
    · exact .inr ⟨_, .inr rfl, switched⟩

end Bam
