import Mathlib.Data.List.DropRight
import Mathlib.Data.Prod.Lex
import Mathlib.Data.String.Basic
import Zaion.Lib.Hex
import Zaion.Lib.Stable
import Zaion.Lib.Text
import Zaion.Ledger.Chain

/-! `ensure_schema`: the tables and indexes of a ledger database, its identity, and the chain
columns that an older `events` table lacks. The transaction commits the whole result or
nothing. -/
namespace Zaion.Ledger

open Lib

inductive SchemaError where
  | ledger (error : LedgerError)
  | invalidDatabaseInstanceIdentity (detail : String)
  deriving DecidableEq

/-- The rows stand in the order of their row ids. A column the table lacks has no meaning in them. -/
structure EventsTable where
  hasSeqNum : Bool
  hasPrevHash : Bool
  hasParentEventId : Bool
  rows : List EventRow

/-- A key column in `pragma_index_xinfo`. -/
structure IndexColumn where
  name : Option String
  desc : Int
  coll : Option String
  deriving DecidableEq

/-- The index named `ux_events_principal_seq`. -/
structure SequenceIndex where
  unique : Int
  whereClause : Int
  columns : List IndexColumn
  deriving DecidableEq

/-- A row of `sqlite_master`. -/
structure SchemaObject where
  type : String
  name : String
  tblName : String
  sql : String
  deriving DecidableEq

structure ChainMigration where
  migrationId : String
  migrationKind : String
  beforeHash : String
  afterHash : String
  eventCount : Int
  appliedAt : String
  deriving DecidableEq

structure SchemaMigration where
  migrationId : String
  appliedAt : String
  deriving DecidableEq

/-- `objects` names the tables, indexes and triggers that are only created when missing. -/
structure Database where
  objects : List String
  events : EventsTable
  sequenceIndex : Option SequenceIndex
  identityObjects : List SchemaObject
  identityRows : List (Int × String)
  chainMigrations : List ChainMigration
  schemaMigrations : List SchemaMigration
  ftsRows : List (String × String × String)

/-- What a run of `ensure_schema` draws from outside; `storedSql` is the text `sqlite_master`
keeps of a statement. -/
structure SchemaEnv where
  host : Host
  storedSql : String → String
  newUuid : String
  now : String

/-! The identity of the database -/

def databaseIdentityTable : String := "ledger_database_instance_identity_v1"
def databaseIdentityNoInsertTrigger : String := "ledger_database_instance_identity_no_insert_v1"
def databaseIdentityNoUpdateTrigger : String := "ledger_database_instance_identity_no_update_v1"
def databaseIdentityNoDeleteTrigger : String := "ledger_database_instance_identity_no_delete_v1"
def databaseIdentityMigration : String := "ledger_database_instance_identity_v1"
def ftsRebuildMigration : String := "events_fts_rebuild_v1"

def createDatabaseIdentityTable : String :=
  "\nCREATE TABLE ledger_database_instance_identity_v1 (\n    singleton   INTEGER PRIMARY KEY CHECK (singleton = 1),\n" ++
  "    instance_id TEXT NOT NULL UNIQUE\n) WITHOUT ROWID;\n"

def createDatabaseIdentityTrigger (name event : String) : String :=
  "\nCREATE TRIGGER " ++ name ++ "\nBEFORE " ++ event ++ " ON ledger_database_instance_identity_v1\nBEGIN\n" ++
  "    SELECT RAISE(ABORT, 'ledger database instance identity is immutable');\nEND;\n"

/-- The objects with their types and statements, in the order they are made and checked. -/
def identityDefinitions : List (String × String × String) :=
  [("table", databaseIdentityTable, createDatabaseIdentityTable),
   ("trigger", databaseIdentityNoInsertTrigger, createDatabaseIdentityTrigger databaseIdentityNoInsertTrigger "INSERT"),
   ("trigger", databaseIdentityNoUpdateTrigger, createDatabaseIdentityTrigger databaseIdentityNoUpdateTrigger "UPDATE"),
   ("trigger", databaseIdentityNoDeleteTrigger, createDatabaseIdentityTrigger databaseIdentityNoDeleteTrigger "DELETE")]

def databaseSchemaObjectSql (db : Database) (type name : String) : Option String :=
  (db.identityObjects.find? (fun object => decide (object.type = type ∧ object.name = name))).map SchemaObject.sql

/-- `split_whitespace`, `join(" ")`, `trim_end_matches(';')`. -/
def normalizeDatabaseSchemaSql (sql : String) : String :=
  String.ofList ((List.intercalate [' '] ((sql.toList.splitOnP isWhiteSpace).filter (fun word => word ≠ []))).rdropWhile
    (fun c => c = ';'))

def validateDatabaseSchemaObject (db : Database) (type name expectedSql : String) : Except SchemaError Unit := do
  let actual ← required (databaseSchemaObjectSql db type name)
    (.invalidDatabaseInstanceIdentity ("required database identity " ++ type ++ " " ++ name ++ " is missing"))
  ensure (normalizeDatabaseSchemaSql actual = normalizeDatabaseSchemaSql expectedSql)
    (.invalidDatabaseInstanceIdentity ("database identity " ++ type ++ " " ++ name ++ " has an unexpected definition"))

/-- `Uuid::parse_str` reads the text, and `to_string` gives it back: hyphens at 8, 13, 18 and 23
among 32 lower-case digits. -/
def canonicalUuid (text : String) : Bool :=
  text.toList.length = 36 ∧
    text.toList.zipIdx.all fun c => if c.2 ∈ [8, 13, 18, 23] then decide (c.1 = '-') else isLowerHex c.1

def readDatabaseInstanceId (db : Database) : Except SchemaError String :=
  match db.identityRows with
  | [(singleton, instanceId)] => do
    ensure (singleton = 1) (SchemaError.invalidDatabaseInstanceIdentity "database identity singleton key is invalid")
    ensure (canonicalUuid instanceId = true)
      (SchemaError.invalidDatabaseInstanceIdentity "database identity is not a canonical UUID")
    .ok instanceId
  | _ => .error (.invalidDatabaseInstanceIdentity "database identity table must contain exactly one row")

def migrated (db : Database) (migrationId : String) : Prop :=
  migrationId ∈ db.schemaMigrations.map SchemaMigration.migrationId

instance (db : Database) (migrationId : String) : Decidable (migrated db migrationId) :=
  inferInstanceAs (Decidable (_ ∈ _))

def extraTrigger (db : Database) : Option String :=
  ((sortBy SchemaObject.name (db.identityObjects.filter (fun object => decide (object.type = "trigger" ∧
    object.tblName = databaseIdentityTable ∧ object.name ∉ [databaseIdentityNoInsertTrigger,
      databaseIdentityNoUpdateTrigger, databaseIdentityNoDeleteTrigger])))).head?).map SchemaObject.name

def validatedDatabaseInstanceId (db : Database) : Except SchemaError String := do
  ensure (migrated db databaseIdentityMigration)
    (SchemaError.invalidDatabaseInstanceIdentity "database identity migration marker is missing")
  checkAll (fun d => validateDatabaseSchemaObject db d.1 d.2.1 d.2.2) identityDefinitions
  match extraTrigger db with
  | some name =>
    .error (.invalidDatabaseInstanceIdentity ("unexpected database identity trigger is installed: " ++ name))
  | none => readDatabaseInstanceId db

def createIdentity (env : SchemaEnv) (db : Database) : Database where
  objects := db.objects
  events := db.events
  sequenceIndex := db.sequenceIndex
  identityObjects := db.identityObjects ++
    identityDefinitions.map (fun d => ⟨d.1, d.2.1, databaseIdentityTable, env.storedSql d.2.2⟩)
  identityRows := [(1, env.newUuid)]
  chainMigrations := db.chainMigrations
  schemaMigrations := db.schemaMigrations ++ [⟨databaseIdentityMigration, env.now⟩]
  ftsRows := db.ftsRows

/-- A database without the marker gets the objects, one with it must have them. -/
def installIdentity (env : SchemaEnv) (db : Database) : Except SchemaError Database :=
  if ¬ migrated db databaseIdentityMigration then
    if identityDefinitions.any (fun d => (databaseSchemaObjectSql db d.1 d.2.1).isSome) then
      .error (.invalidDatabaseInstanceIdentity "database identity objects exist without their migration marker")
    else .ok (createIdentity env db)
  else if identityDefinitions.all (fun d => (databaseSchemaObjectSql db d.1 d.2.1).isSome) then .ok db
  else .error (.invalidDatabaseInstanceIdentity
    "database identity migration marker exists but a required object is missing")

def ensureDatabaseInstanceIdentity (env : SchemaEnv) (db : Database) : Except SchemaError Database := do
  let db ← installIdentity env db
  let _ ← validatedDatabaseInstanceId db
  .ok db

/-! The chain columns -/

structure ChainMigrationRow where
  rowId : Nat
  eventId : String
  principalId : String
  eventType : String
  payloadJson : String
  createdAt : String

/-- A row read with its row id. -/
def ChainMigrationRow.of (row : EventRow × Nat) : ChainMigrationRow where
  rowId := row.2
  eventId := row.1.eventId
  principalId := row.1.principalId
  eventType := row.1.eventType
  payloadJson := row.1.payloadJson
  createdAt := row.1.createdAt

/-- `ORDER BY principal_id, seq_num, rowid`. -/
def byChain (rows : List EventRow) : List (EventRow × Nat) :=
  sortBy (fun row => toLex (row.1.principalId, toLex (row.1.seqNum, row.2))) rows.zipIdx

/-- `ORDER BY principal_id, seq_num, event_id`. -/
def byPrincipal (rows : List EventRow) : List EventRow :=
  sortBy (fun row => toLex (row.principalId, toLex (row.seqNum, row.eventId))) rows

/-- `UPDATE events SET seq_num = ?2, prev_hash = ?3 WHERE rowid = ?1`, under the unique index where
there is one. -/
def updateChainColumns (indexed : Bool) (rows : List EventRow) (rowId : Nat) (seqNum : Int) (prevHash : String) :
    Except LedgerError (List EventRow) :=
  match rows[rowId]? with
  | none => .ok rows
  | some row => do
    ensure (indexed = true → ∀ other ∈ rows.eraseIdx rowId, ¬ (other.principalId = row.principalId ∧ other.seqNum = seqNum))
      LedgerError.sqliteConstraint
    .ok (rows.set rowId { row with seqNum := seqNum, prevHash := prevHash })

/-- The loop of `rebuild_event_chain_metadata`: rows left, active principal, position and digest. -/
def rebuildRows (host : Host) (indexed : Bool) :
    List ChainMigrationRow → String → Int → String → List EventRow → Except LedgerError (List EventRow)
  | [], _, _, _, rows => .ok rows
  | row :: rest, activePrincipal, seqNum, prevHash, rows => do
    let position := if row.principalId ≠ activePrincipal then ((0 : Int), genesisHash) else (seqNum, prevHash)
    let rows ← updateChainColumns indexed rows row.rowId position.1 position.2
    ensure (position.1 ≠ i64Max) (LedgerError.corruptChain "event sequence exhausted i64")
    rebuildRows host indexed rest row.principalId (position.1 + 1)
      (eventHash host row.eventId row.principalId row.eventType row.payloadJson row.createdAt position.1) rows

def rebuildEventChainMetadata (host : Host) (indexed : Bool) (rows : List EventRow) : Except LedgerError (List EventRow) :=
  rebuildRows host indexed ((byChain rows).map ChainMigrationRow.of) "" 0 genesisHash rows

/-- The loop of `validate_chain_metadata`. -/
def validateRows (host : Host) : List EventRow → String → Int → String → Except LedgerError Unit
  | [], _, _, _ => .ok ()
  | row :: rest, activePrincipal, expectedSeq, expectedPrev => do
    let position := if row.principalId ≠ activePrincipal then ((0 : Int), genesisHash) else (expectedSeq, expectedPrev)
    ensure (row.seqNum = position.1 ∧ row.prevHash = position.2) (LedgerError.corruptChain ("principal " ++ row.principalId ++
      " expected seq " ++ toString position.1 ++ " with prev " ++ position.2 ++ ", found seq " ++ toString row.seqNum ++
      " with prev " ++ row.prevHash))
    ensure (position.1 ≠ i64Max) (LedgerError.corruptChain "event sequence exhausted i64")
    validateRows host rest row.principalId (position.1 + 1) (rowHash host row.principalId row)

def validateChainMetadata (host : Host) (rows : List EventRow) : Except LedgerError Unit :=
  validateRows host (byPrincipal rows) "" 0 genesisHash

def chainMetadataIsAllDefaults (rows : List EventRow) : Prop := ∀ row ∈ rows, row.seqNum = 0 ∧ row.prevHash = genesisHash

instance (rows : List EventRow) : Decidable (chainMetadataIsAllDefaults rows) := inferInstanceAs (Decidable (∀ row ∈ rows, _))

/-- The rows in the order of principals and row ids, as length-prefixed parts. -/
def chainMetadataDigest (host : Host) (rows : List EventRow) : Nat × String :=
  (rows.length, "sha256:" ++ host.sha256Hex
    ((sortBy (fun row : EventRow × Nat => toLex (row.1.principalId, row.2)) rows.zipIdx).flatMap fun row =>
      Host.framed [row.1.eventId, row.1.principalId, row.1.prevHash] ++
        Host.littleEndian 8 (row.1.seqNum % 18446744073709551616).toNat))

def recordChainMigration (env : SchemaEnv) (db : Database) (migrationKind beforeHash afterHash : String) (eventCount : Nat) :
    Except LedgerError Database := do
  let migrationId := "ledger-chain-migration-" ++ env.host.shortHash [migrationKind, beforeHash, afterHash]
  ensure ((eventCount : Int) ≤ i64Max) (LedgerError.corruptChain "chain migration event count exceeds i64")
  ensure (migrationId ∉ db.chainMigrations.map ChainMigration.migrationId) LedgerError.sqliteConstraint
  .ok { db with chainMigrations :=
    db.chainMigrations ++ [⟨migrationId, migrationKind, beforeHash, afterHash, eventCount, env.now⟩] }

def sequenceColumns : List IndexColumn :=
  [⟨some "principal_id", 0, some "BINARY"⟩, ⟨some "seq_num", 0, some "BINARY"⟩]

/-- Of the expected shape the index lets no two rows of a principal share a position. -/
def sequenceIndexHasExpectedShape (db : Database) : Bool :=
  match db.sequenceIndex with
  | none => false
  | some index => index.unique = 1 ∧ index.whereClause = 0 ∧ index.columns = sequenceColumns

def migrateOrValidateEventChain (env : SchemaEnv) (db : Database) (chainColumnsAdded : Bool) : Except LedgerError Database :=
  match validateChainMetadata env.host db.events.rows with
  | .ok () => .ok db
  | .error error =>
    if chainColumnsAdded = true ∨ chainMetadataIsAllDefaults db.events.rows then do
      let migrationKind := if chainColumnsAdded then "legacy_chain_columns_v1" else "legacy_default_chain_repair_v1"
      let before := chainMetadataDigest env.host db.events.rows
      let rows ← rebuildEventChainMetadata env.host (sequenceIndexHasExpectedShape db) db.events.rows
      validateChainMetadata env.host rows
      let after := chainMetadataDigest env.host rows
      ensure (after.1 = before.1) (LedgerError.corruptChain "chain migration changed event cardinality")
      recordChainMigration env { db with events := { db.events with rows := rows } } migrationKind before.2 after.2 before.1
    else .error error

/-! The whole schema -/

/-- `CREATE .. IF NOT EXISTS`. -/
def createIfNotExists (objects : List String) (name : String) : List String :=
  if name ∈ objects then objects else objects ++ [name]

def baseObjects : List String :=
  ["events", "idx_events_namespace", "idx_events_type", "idx_events_principal", "ledger_chain_migrations",
    "ledger_schema_migrations", "blobs", "checkpoints", "idx_checkpoints_namespace"]

def laterObjects : List String :=
  ["idx_events_seq", "idx_events_parent", "idx_events_namespace_type_seq", "events_fts", "events_fts_insert"]

/-- The batch `CREATE_TABLES_BASE`; a fresh `events` table has every column. -/
def createTablesBase (db : Database) : Database where
  objects := baseObjects.foldl createIfNotExists db.objects
  events := if "events" ∈ db.objects then db.events else ⟨true, true, true, []⟩
  sequenceIndex := db.sequenceIndex
  identityObjects := db.identityObjects
  identityRows := db.identityRows
  chainMigrations := db.chainMigrations
  schemaMigrations := db.schemaMigrations
  ftsRows := db.ftsRows

/-- `ALTER TABLE events ADD COLUMN .. DEFAULT ..` for each column that is missing. -/
def EventsTable.addColumns (table : EventsTable) : EventsTable where
  hasSeqNum := true
  hasPrevHash := true
  hasParentEventId := true
  rows := table.rows.map fun row =>
    { row with
      seqNum := if table.hasSeqNum then row.seqNum else 0
      prevHash := if table.hasPrevHash then row.prevHash else genesisHash
      parentEventId := if table.hasParentEventId then row.parentEventId else none }

/-- No two rows of a principal at one position. -/
def Positioned (rows : List EventRow) : Prop := (rows.map (fun row => (row.principalId, row.seqNum))).Nodup

instance (rows : List EventRow) : Decidable (Positioned rows) := inferInstanceAs (Decidable (List.Nodup _))

def createSequenceIndex (db : Database) : Except LedgerError Database := do
  if sequenceIndexHasExpectedShape db then .ok db else
    ensure (Positioned db.events.rows) LedgerError.sqliteConstraint
    .ok { db with sequenceIndex := some ⟨1, 0, sequenceColumns⟩ }

def createLaterObjects (db : Database) : Database :=
  { db with objects := laterObjects.foldl createIfNotExists db.objects }

/-- `INSERT INTO events_fts(events_fts) VALUES('rebuild')`, once. -/
def rebuildFts (env : SchemaEnv) (db : Database) : Database :=
  if migrated db ftsRebuildMigration then db
  else { db with
    ftsRows := db.events.rows.map (fun row => (row.eventId, row.eventType, row.payloadJson))
    schemaMigrations := db.schemaMigrations ++ [⟨ftsRebuildMigration, env.now⟩] }

def ensureSchema (env : SchemaEnv) (db : Database) : Except SchemaError Database := do
  let db ← ensureDatabaseInstanceIdentity env (createTablesBase db)
  let added := !db.events.hasSeqNum || !db.events.hasPrevHash
  let db ← (migrateOrValidateEventChain env { db with events := db.events.addColumns } added).mapError .ledger
  let db ← (createSequenceIndex db).mapError .ledger
  .ok (rebuildFts env (createLaterObjects db))

end Zaion.Ledger
