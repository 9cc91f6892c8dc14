import Bam.Indexer.Cursor
import Bam.Lib.Table

namespace Bam

/-!
# The indexer's tick

A tick is cut at its database transactions: it reads the current generation,
lists confirmed rows, projects them one by one, lists reorged batches and
evicts them one by one.  The cursor it carries in memory is written back with
every projection and every eviction.
-/

/-- The chain coordinate of a row, where its three columns are set. -/
def MessageRow.coord? (row : MessageRow) : Option ChainCoord :=
  match row.blockNumber, row.txIndex, row.messageIndexWithinBatch with
  | some blockNumber, some txIndex, some msgIndex =>
      some { blockNumber, txIndex, msgIndex }
  | _, _, _ => none

/-- The `ORDER BY` of `listConfirmedAfter`. -/
def MessageRow.coordKey (row : MessageRow) : List Int :=
  match row.coord? with
  | some coord => coord.sortKey
  | none => []

/-- The confirmed rows with a coordinate of a tag of a chain. -/
def MessageRow.isListed
    (chainId : Nat)
    (contentTag : Bytes32)
    (row : MessageRow) : Bool :=
  row.status = .confirmed && row.contentTag = contentTag &&
    row.chainId = some chainId && row.coord?.isSome

/-- `listConfirmedAfter`. -/
def Store.listConfirmedAfter
    (store : Store)
    (chainId : Nat)
    (contentTag : Bytes32)
    (after : ChainCoord)
    (limit : Nat) : List MessageRow :=
  (Table.orderBy MessageRow.coordKey
    (store.messages.select fun row =>
      row.isListed chainId contentTag &&
        row.coord?.any after.isBefore)).take limit

/-- An entry of `listReorgedAfter`. -/
structure ReorgEntry where
  txHash : Bytes32
  invalidatedAt : Int
  deriving Repr, DecidableEq

/-- The reorged batches of a tag of a chain with the time of their mark. -/
def BatchRow.reorgEntry?
    (chainId : Nat)
    (contentTag : Bytes32)
    (batch : BatchRow) : Option ReorgEntry :=
  if batch.status = .reorged ∧ batch.chainId = chainId ∧
      batch.contentTag = contentTag then
    batch.invalidatedAt.map fun invalidatedAt =>
      { txHash := batch.txHash, invalidatedAt }
  else none

/-- The `ORDER BY` of `listReorgedAfter`. -/
def ReorgEntry.sortKey (entry : ReorgEntry) : List Int :=
  [entry.invalidatedAt, entry.txHash.toNat]

/-- `listReorgedAfter`. -/
def Store.listReorgedAfter
    (store : Store)
    (chainId : Nat)
    (contentTag : Bytes32)
    (afterInvalidatedAt : Int)
    (limit : Nat) : List ReorgEntry :=
  (Table.orderBy ReorgEntry.sortKey
    ((store.batches.rows.filterMap
      (BatchRow.reorgEntry? chainId contentTag)).filter fun entry =>
        afterInvalidatedAt < entry.invalidatedAt)).take limit

/-- An `IndexerHandler`: `project` gives the values it inserts for a row, and
`none` where it throws or the database refuses them; `onConflict` says what an
insert over an older row leaves. -/
structure IndexerHandler (Decoded Values : Type) where
  contentTag : Bytes32
  version : Nat
  decode : Bytes → Option Decoded
  project : MessageRow → Decoded → Option Values
  onConflict : Values → Values → Values

/-- A row of the handler's table; `projectedBy` is the version of the code that
wrote it, and nothing reads it. -/
structure ProjectedRow (Values : Type) where
  versionId : Nat
  messageId : Bytes32
  batchRef : Bytes32
  values : Values
  projectedBy : Nat
  deriving Repr, DecidableEq

/-- The primary key of the handler's table. -/
def ProjectedRow.key
    {Values : Type}
    (row : ProjectedRow Values) : Nat × Bytes32 :=
  (row.versionId, row.messageId)

/-- The table of a handler. -/
abbrev ProjectedTable (Values : Type) :=
  Table (Nat × Bytes32) (ProjectedRow Values) ProjectedRow.key

/-- The schema of a handler: dropped, created, or with its table. -/
inductive HandlerSchema (Values : Type) where
  | absent
  | created
  | posts (rows : ProjectedTable Values)

/-- The database an indexer writes, as far as it is about one handler. -/
structure IndexerDb (Values : Type) where
  cursors : HandlerCursors
  schema : HandlerSchema Values

/-- What a tick does next. -/
inductive TickStage where
  | idle
  | listing (forward : HandlerCursor)
  | projecting (forward : HandlerCursor) (rows : List MessageRow)
  | listingReorged (forward : HandlerCursor)
  | reorging (forward : HandlerCursor) (entries : List ReorgEntry)
  deriving Repr, DecidableEq

/-- The options of `tick` for one handler. -/
structure TickOptions (Decoded Values : Type) where
  chainId : Nat
  handler : IndexerHandler Decoded Values
  batchSize : Nat

namespace HandlerSchema

variable {Values : Type}

/-- The rows of the table; none where there is no table. -/
def rows : HandlerSchema Values → List (ProjectedRow Values)
  | .posts table => table.rows
  | _ => []

/-- `INSERT … ON CONFLICT (version_id, message_id) DO UPDATE`. -/
def insert
    (onConflict : Values → Values → Values)
    (row : ProjectedRow Values) :
    HandlerSchema Values → Option (HandlerSchema Values)
  | .posts table =>
      match table.get? row.key with
      | none => some (.posts (table.put row))
      | some existing =>
          some (.posts (table.put {
            row with values := onConflict existing.values row.values }))
  | _ => none

/-- The `DELETE` of `onReorg`. -/
def onReorg
    (txHash : Bytes32) :
    HandlerSchema Values → Option (HandlerSchema Values)
  | .posts table =>
      some (.posts (table.deleteWhere fun row => row.batchRef = txHash))
  | _ => none

/-- `deleteVersion`. -/
def deleteVersion
    (versionId : Nat) :
    HandlerSchema Values → Option (HandlerSchema Values)
  | .posts table =>
      some (.posts (table.deleteWhere fun row =>
        row.versionId = versionId))
  | _ => none

/-- The DDL of the handler. -/
def migrate : HandlerSchema Values → Option (HandlerSchema Values)
  | .posts table => some (.posts table)
  | .created => some (.posts Table.empty)
  | .absent => none

/-- `CREATE SCHEMA IF NOT EXISTS`. -/
def createIfAbsent : HandlerSchema Values → HandlerSchema Values
  | .absent => .created
  | schema => schema

end HandlerSchema

section Tick

variable {Decoded Values : Type}

/-- The row `handler.project` inserts. -/
def IndexerHandler.projectRow
    (handler : IndexerHandler Decoded Values)
    (versionId : Nat)
    (row : MessageRow)
    (decoded : Decoded) : Option (ProjectedRow Values) :=
  match row.messageId, row.batchRef, handler.project row decoded with
  | some messageId, some batchRef, some values =>
      some {
        versionId := versionId
        messageId := messageId
        batchRef := batchRef
        values := values
        projectedBy := handler.version }
  | _, _, _ => none

/-- The cursor `projectOne` writes. -/
def HandlerCursor.advancedTo
    (forward : HandlerCursor)
    (row : MessageRow)
    (now : Int) : HandlerCursor :=
  { forward with
    lastBlockNumber :=
      (row.blockNumber.map Int.ofNat).getD forward.lastBlockNumber
    lastTxIndex := (row.txIndex.map Int.ofNat).getD forward.lastTxIndex
    lastMsgIndex :=
      (row.messageIndexWithinBatch.map Int.ofNat).getD forward.lastMsgIndex
    updatedAt := now }

/-- The cursor `reorgOne` writes. -/
def HandlerCursor.reorgedTo
    (forward : HandlerCursor)
    (entry : ReorgEntry)
    (now : Int) : HandlerCursor :=
  { forward with
    lastReorgInvalidatedAt :=
      max forward.lastReorgInvalidatedAt entry.invalidatedAt
    updatedAt := now }

/-- The transaction of `projectOne` for a decoded row. -/
def projectTxn
    (handler : IndexerHandler Decoded Values)
    (db : IndexerDb Values)
    (forward : HandlerCursor)
    (row : MessageRow)
    (decoded : Decoded)
    (now : Int) : Option (IndexerDb Values) :=
  match handler.projectRow forward.versionId row decoded with
  | none => none
  | some projected =>
      match db.schema.insert handler.onConflict projected with
      | none => none
      | some schema =>
          (db.cursors.upsertCursor (forward.advancedTo row now)).map
            fun cursors => { cursors, schema }

/-- The transaction of `projectOne` for a row that does not decode. -/
def skipTxn
    (db : IndexerDb Values)
    (forward : HandlerCursor)
    (row : MessageRow)
    (now : Int) : Option (IndexerDb Values) :=
  (db.cursors.upsertCursor (forward.advancedTo row now)).map
    fun cursors => { db with cursors }

/-- The transaction of `reorgOne`. -/
def reorgTxn
    (db : IndexerDb Values)
    (forward : HandlerCursor)
    (entry : ReorgEntry)
    (now : Int) : Option (IndexerDb Values) :=
  match db.schema.onReorg entry.txHash with
  | none => none
  | some schema =>
      (db.cursors.upsertCursor (forward.reorgedTo entry now)).map
        fun cursors => { cursors, schema }

/-- `projectOne`: a projection that throws ends the forward pass, and a skip
that throws ends the tick. -/
def projectOne
    (handler : IndexerHandler Decoded Values)
    (db : IndexerDb Values)
    (forward : HandlerCursor)
    (row : MessageRow)
    (rest : List MessageRow)
    (now : Int) : IndexerDb Values × TickStage :=
  match handler.decode row.contents with
  | none =>
      match skipTxn db forward row now with
      | none => (db, .idle)
      | some next => (next, .projecting (forward.advancedTo row now) rest)
  | some decoded =>
      match projectTxn handler db forward row decoded now with
      | none => (db, .listingReorged forward)
      | some next => (next, .projecting (forward.advancedTo row now) rest)

/-- `reorgOne`: an eviction that throws ends the tick. -/
def reorgOne
    (db : IndexerDb Values)
    (forward : HandlerCursor)
    (entry : ReorgEntry)
    (rest : List ReorgEntry)
    (now : Int) : IndexerDb Values × TickStage :=
  match reorgTxn db forward entry now with
  | none => (db, .idle)
  | some next => (next, .reorging (forward.reorgedTo entry now) rest)

/-- The next transaction of `tickHandler`, served by its databases. -/
def tickAdvance
    (options : TickOptions Decoded Values)
    (store : Store)
    (db : IndexerDb Values)
    (now : Int) : TickStage → IndexerDb Values × TickStage
  | .idle =>
      match db.cursors.getCurrentCursor with
      | none => (db, .idle)
      | some forward => (db, .listing forward)
  | .listing forward =>
      (db, .projecting forward
        (store.listConfirmedAfter options.chainId
          options.handler.contentTag forward.forward options.batchSize))
  | .projecting forward [] => (db, .listingReorged forward)
  | .projecting forward (row :: rest) =>
      projectOne options.handler db forward row rest now
  | .listingReorged forward =>
      (db, .reorging forward
        (store.listReorgedAfter options.chainId
          options.handler.contentTag forward.lastReorgInvalidatedAt
          options.batchSize))
  | .reorging _ [] => (db, .idle)
  | .reorging forward (entry :: rest) =>
      reorgOne db forward entry rest now

/-- The next transaction of `tickHandler` fails and is rolled back. -/
def tickFault
    (handler : IndexerHandler Decoded Values) : TickStage → TickStage
  | .projecting forward (row :: _) =>
      if (handler.decode row.contents).isSome then .listingReorged forward
      else .idle
  | .projecting forward [] => .listingReorged forward
  | _ => .idle

/-- The transactions of a tick, with what each leaves. -/
inductive TickMove
    (options : TickOptions Decoded Values)
    (store : Store)
    (db : IndexerDb Values)
    (now : Int) : TickStage → IndexerDb Values → TickStage → Prop where
  | absent
      (noCurrent : db.cursors.getCurrentCursor = none) :
      TickMove options store db now .idle db .idle
  | read
      (forward : HandlerCursor)
      (current : db.cursors.getCurrentCursor = some forward) :
      TickMove options store db now .idle db (.listing forward)
  | list
      (forward : HandlerCursor) :
      TickMove options store db now (.listing forward) db
        (.projecting forward
          (store.listConfirmedAfter options.chainId
            options.handler.contentTag forward.forward
            options.batchSize))
  | projected
      (forward : HandlerCursor) :
      TickMove options store db now (.projecting forward []) db
        (.listingReorged forward)
  | skip
      (forward : HandlerCursor)
      (row : MessageRow)
      (rest : List MessageRow)
      (next : IndexerDb Values)
      (undecodable : options.handler.decode row.contents = none)
      (committed : skipTxn db forward row now = some next) :
      TickMove options store db now (.projecting forward (row :: rest))
        next (.projecting (forward.advancedTo row now) rest)
  | skipRefused
      (forward : HandlerCursor)
      (row : MessageRow)
      (rest : List MessageRow)
      (undecodable : options.handler.decode row.contents = none)
      (refused : skipTxn db forward row now = none) :
      TickMove options store db now (.projecting forward (row :: rest))
        db .idle
  | project
      (forward : HandlerCursor)
      (row : MessageRow)
      (rest : List MessageRow)
      (decoded : Decoded)
      (next : IndexerDb Values)
      (decodes : options.handler.decode row.contents = some decoded)
      (committed :
        projectTxn options.handler db forward row decoded now =
          some next) :
      TickMove options store db now (.projecting forward (row :: rest))
        next (.projecting (forward.advancedTo row now) rest)
  | projectRefused
      (forward : HandlerCursor)
      (row : MessageRow)
      (rest : List MessageRow)
      (decoded : Decoded)
      (decodes : options.handler.decode row.contents = some decoded)
      (refused :
        projectTxn options.handler db forward row decoded now = none) :
      TickMove options store db now (.projecting forward (row :: rest))
        db (.listingReorged forward)
  | listReorged
      (forward : HandlerCursor) :
      TickMove options store db now (.listingReorged forward) db
        (.reorging forward
          (store.listReorgedAfter options.chainId
            options.handler.contentTag forward.lastReorgInvalidatedAt
            options.batchSize))
  | finish
      (forward : HandlerCursor) :
      TickMove options store db now (.reorging forward []) db .idle
  | evict
      (forward : HandlerCursor)
      (entry : ReorgEntry)
      (rest : List ReorgEntry)
      (next : IndexerDb Values)
      (committed : reorgTxn db forward entry now = some next) :
      TickMove options store db now (.reorging forward (entry :: rest))
        next (.reorging (forward.reorgedTo entry now) rest)
  | evictRefused
      (forward : HandlerCursor)
      (entry : ReorgEntry)
      (rest : List ReorgEntry)
      (refused : reorgTxn db forward entry now = none) :
      TickMove options store db now (.reorging forward (entry :: rest))
        db .idle

/-- Every advance is one of the transactions. -/
theorem tickAdvance_move
    (options : TickOptions Decoded Values)
    (store : Store)
    (db : IndexerDb Values)
    (now : Int)
    (stage : TickStage) :
    TickMove options store db now stage
      (tickAdvance options store db now stage).1
      (tickAdvance options store db now stage).2 := by
  cases stage with
  | idle =>
      simp only [tickAdvance]
      cases current : db.cursors.getCurrentCursor with
      | none =>
          exact .absent current
      | some forward =>
          exact .read forward current
  | listing forward =>
      exact .list forward
  | projecting forward rows =>
      cases rows with
      | nil =>
          exact .projected forward
      | cons row rest =>
          simp only [tickAdvance, projectOne]
          cases decodes : options.handler.decode row.contents with
          | none =>
              cases committed : skipTxn db forward row now with
              | none =>
                  exact .skipRefused forward row rest decodes committed
              | some next =>
                  exact .skip forward row rest next decodes committed
          | some decoded =>
              simp only
              cases committed :
                  projectTxn options.handler db forward row decoded
                    now with
              | none =>
                  exact .projectRefused forward row rest decoded decodes
                    committed
              | some next =>
                  exact .project forward row rest decoded next decodes
                    committed
  | listingReorged forward =>
      exact .listReorged forward
  | reorging forward entries =>
      cases entries with
      | nil =>
          exact .finish forward
      | cons entry rest =>
          simp only [tickAdvance, reorgOne]
          cases committed : reorgTxn db forward entry now with
          | none =>
              exact .evictRefused forward entry rest committed
          | some next =>
              exact .evict forward entry rest next committed

/-- What a committed skip leaves. -/
theorem skipTxn_eq_some
    {db next : IndexerDb Values}
    {forward : HandlerCursor}
    {row : MessageRow}
    {now : Int}
    (committed : skipTxn db forward row now = some next) :
    next.schema = db.schema ∧
      db.cursors.upsertCursor (forward.advancedTo row now) =
        some next.cursors := by
  obtain ⟨cursors, upserted, isNext⟩ :=
    Option.map_eq_some_iff.mp committed
  subst isNext
  exact ⟨rfl, upserted⟩

/-- What a committed projection leaves. -/
theorem projectTxn_eq_some
    {handler : IndexerHandler Decoded Values}
    {db next : IndexerDb Values}
    {forward : HandlerCursor}
    {row : MessageRow}
    {decoded : Decoded}
    {now : Int}
    (committed :
      projectTxn handler db forward row decoded now = some next) :
    ∃ projected table stored,
      handler.projectRow forward.versionId row decoded = some projected ∧
        db.schema = .posts table ∧
        stored.key = projected.key ∧
        stored.batchRef = projected.batchRef ∧
        stored.projectedBy = projected.projectedBy ∧
        next.schema = .posts (table.put stored) ∧
        db.cursors.upsertCursor (forward.advancedTo row now) =
          some next.cursors := by
  unfold projectTxn at committed
  split at committed
  · cases committed
  · rename_i projected isProjected
    split at committed
    · cases committed
    · rename_i schema inserted
      obtain ⟨cursors, upserted, isNext⟩ :=
        Option.map_eq_some_iff.mp committed
      subst isNext
      unfold HandlerSchema.insert at inserted
      split at inserted
      · rename_i _ table isTable
        split at inserted
        · cases inserted
          exact ⟨projected, table, projected, isProjected, isTable, rfl,
            rfl, rfl, rfl, upserted⟩
        · rename_i existing _
          cases inserted
          exact ⟨projected, table,
            { projected with
              values :=
                handler.onConflict existing.values projected.values },
            isProjected, isTable, rfl, rfl, rfl, rfl, upserted⟩
      · cases inserted

/-- What a committed eviction leaves. -/
theorem reorgTxn_eq_some
    {db next : IndexerDb Values}
    {forward : HandlerCursor}
    {entry : ReorgEntry}
    {now : Int}
    (committed : reorgTxn db forward entry now = some next) :
    ∃ table,
      db.schema = .posts table ∧
        next.schema =
          .posts (table.deleteWhere fun row =>
            row.batchRef = entry.txHash) ∧
        db.cursors.upsertCursor (forward.reorgedTo entry now) =
          some next.cursors := by
  unfold reorgTxn at committed
  split at committed
  · cases committed
  · rename_i schema evicted
    obtain ⟨cursors, upserted, isNext⟩ :=
      Option.map_eq_some_iff.mp committed
    subst isNext
    unfold HandlerSchema.onReorg at evicted
    split at evicted
    · rename_i _ table isTable
      cases evicted
      exact ⟨table, isTable, rfl, upserted⟩
    · cases evicted

/-- A table takes every row. -/
theorem HandlerSchema.insert_posts
    (onConflict : Values → Values → Values)
    (row : ProjectedRow Values)
    (table : ProjectedTable Values) :
    ∃ schema,
      (HandlerSchema.posts table).insert onConflict row = some schema := by
  simp only [HandlerSchema.insert]
  split <;> exact ⟨_, rfl⟩

/-- The row a handler projects. -/
theorem projectRow_eq_some
    {handler : IndexerHandler Decoded Values}
    {versionId : Nat}
    {row : MessageRow}
    {decoded : Decoded}
    {projected : ProjectedRow Values}
    (isProjected :
      handler.projectRow versionId row decoded = some projected) :
    row.messageId = some projected.messageId ∧
      row.batchRef = some projected.batchRef ∧
      projected.versionId = versionId ∧
      projected.projectedBy = handler.version := by
  unfold IndexerHandler.projectRow at isProjected
  split at isProjected
  · rename_i isId isRef _
    cases isProjected
    exact ⟨isId, isRef, rfl, rfl⟩
  · cases isProjected

end Tick

end Bam
