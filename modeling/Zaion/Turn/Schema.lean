import Zaion.Lib.Text
import Zaion.Turn.Load

/-! What `DurableTurnStore::open` creates on a new file and checks on every file: schema
objects, migration markers, and the integrity of the outbox tables. -/
namespace Zaion.Turn

open Lib

namespace SchemaObject

def kind : SchemaObject → SchemaKind
  | migrationTable | orderTable | verifiedCommitTable | quarantineTable => .table
  | orderIndex | revisionIndex => .index
  | _ => .trigger

def name : SchemaObject → String
  | migrationTable => "turn_store_schema_migrations_v2"
  | orderTable => "turn_outbox_commit_order_v2"
  | orderIndex => "idx_turn_outbox_commit_order_v2_tenant"
  | revisionIndex => "ux_turn_outbox_v2_turn_revision"
  | orderTrigger => "turn_outbox_v2_assign_commit_order"
  | orderUpdateGuard => "turn_outbox_commit_order_v2_no_update"
  | orderDeleteGuard => "turn_outbox_commit_order_v2_no_delete"
  | verifiedCommitTable => "turn_outbox_verified_commit_v2"
  | verifiedCommitInsertGuard => "turn_outbox_verified_commit_v2_insert_state"
  | verifiedCommitUpdateGuard => "turn_outbox_verified_commit_v2_no_update"
  | verifiedCommitDeleteGuard => "turn_outbox_verified_commit_v2_no_delete"
  | verifiedDeliveryGuard => "turn_outbox_v2_verified_delivery_guard"
  | quarantineTable => "turn_outbox_quarantine_v2"
  | quarantineInsertGuard => "turn_outbox_quarantine_v2_insert_state"
  | quarantineUpdateGuard => "turn_outbox_quarantine_v2_no_update"
  | quarantineDeleteGuard => "turn_outbox_quarantine_v2_no_delete"

def onTable : SchemaObject → String
  | migrationTable => "turn_store_schema_migrations_v2"
  | orderTable | orderIndex | orderUpdateGuard | orderDeleteGuard => "turn_outbox_commit_order_v2"
  | revisionIndex | orderTrigger | verifiedDeliveryGuard => "turn_outbox_v2"
  | verifiedCommitTable | verifiedCommitInsertGuard | verifiedCommitUpdateGuard
  | verifiedCommitDeleteGuard => "turn_outbox_verified_commit_v2"
  | quarantineTable | quarantineInsertGuard | quarantineUpdateGuard
  | quarantineDeleteGuard => "turn_outbox_quarantine_v2"

def entry (object : SchemaObject) : SchemaEntry :=
  ⟨object.kind, object.name, object.onTable, .constant object⟩

end SchemaObject

/-- `schema_object_sql`. -/
def schemaObjectSql (db : Database) (object : SchemaObject) : Option Definition :=
  (db.schema.find? (fun e => e.kind = object.kind && e.name = object.name)).map SchemaEntry.definition

def schemaObjectExists (db : Database) (object : SchemaObject) : Bool :=
  (schemaObjectSql db object).isSome

/-- `CREATE ..` of an object. -/
def create (object : SchemaObject) (db : Database) : Database :=
  { db with schema := db.schema ++ [object.entry] }

/-- `validate_schema_object`. -/
def validateSchemaObject (db : Database) (object : SchemaObject) : Except TurnStoreError Unit := do
  let actual ← required (schemaObjectSql db object)
    (TurnStoreError.schemaIntegrity ("required " ++ object.kind.text ++ " " ++ object.name ++ " is missing"))
  ensure (actual = .constant object) (TurnStoreError.schemaIntegrity
    ("required " ++ object.kind.text ++ " " ++ object.name ++ " has an unexpected definition"))

/-- `validate_order_trigger_schema`. -/
def orderTriggers : List SchemaObject := [.orderTrigger, .orderUpdateGuard, .orderDeleteGuard]

def verifiedCommitTriggers : List SchemaObject := [.verifiedCommitInsertGuard,
  .verifiedCommitUpdateGuard, .verifiedCommitDeleteGuard, .verifiedDeliveryGuard]

/-- `validate_outbox_dispatcher_triggers`. -/
def quarantineTriggers : List SchemaObject := [.quarantineInsertGuard, .quarantineUpdateGuard,
  .quarantineDeleteGuard]

def allTriggers : List SchemaObject := orderTriggers ++ verifiedCommitTriggers ++ quarantineTriggers

def guardedTables : List String := ["turn_actor_v2", "turn_state_v2", "turn_outbox_v2",
  "turn_outbox_commit_order_v2", "turn_outbox_verified_commit_v2", "turn_outbox_quarantine_v2",
  "turn_store_schema_migrations_v2"]

def SchemaEntry.extraTrigger (e : SchemaEntry) : Bool :=
  e.kind = .trigger && guardedTables.contains e.onTable && !(allTriggers.map SchemaObject.name).contains e.name

/-- `validate_outbox_trigger_allowlist`; the error names the first extra trigger by name. -/
def validateOutboxTriggerAllowlist (db : Database) : Except TurnStoreError Unit :=
  match (((db.schema.filter SchemaEntry.extraTrigger).map SchemaEntry.name).mergeSort
      (fun a b => decide (a ≤ b))).head? with
  | some name => .error (.schemaIntegrity ("unexpected outbox trigger is installed: " ++ name))
  | none => .ok ()

/-- `validate_no_extra_outbox_triggers`. -/
def validateNoExtraOutboxTriggers (db : Database) : Except TurnStoreError Unit := do
  checkAll (validateSchemaObject db) allTriggers
  validateOutboxTriggerAllowlist db

inductive Migration where
  | order
  | orderGuard
  | verifiedCommit
  | quarantine
  deriving DecidableEq, Repr

namespace Migration

def id : Migration → String
  | order => "turn_outbox_commit_order_v1"
  | orderGuard => "turn_outbox_commit_order_immutability_v1"
  | verifiedCommit => "turn_outbox_verified_commit_v1"
  | quarantine => "turn_outbox_quarantine_v1"

def kind : Migration → String
  | order => "legacy_outbox_rowid_order_v1"
  | orderGuard => "commit_order_immutability_v1"
  | verifiedCommit => "verified_event_commit_evidence_v1"
  | quarantine => "immutable_dispatch_quarantine_v1"

/-- How the messages speak of the migration. -/
def title : Migration → String
  | order => "outbox order"
  | orderGuard => "outbox order guard"
  | verifiedCommit => "verified outbox commit"
  | quarantine => "outbox quarantine"

end Migration

/-- `load_outbox_order_manifest`, `load_order_guard_marker`, `load_verified_commit_marker` and
`load_quarantine_migration_marker`. -/
def loadMarker (db : Database) (migration : Migration) : Except TurnStoreError (Option MigrationRow) :=
  match db.migrations.find? (fun m => m.migrationId = migration.id) with
  | none => .ok none
  | some marker => do
    ensure (marker.migrationKind = migration.kind ∧ startsWithText marker.sourceDigest "sha256:" = true)
      (TurnStoreError.schemaIntegrity (migration.title ++ " migration marker is malformed"))
    .ok (some marker)

def recordMigration (migration : Migration) (count maximum : Nat) (digest : String) (appliedAt : DateTime)
    (db : Database) : Database :=
  { db with migrations := db.migrations ++
      [⟨migration.id, migration.kind, count, maximum, digest, appliedAt.millis⟩] }

/-- `i64::to_le_bytes`, `u64::to_le_bytes`. -/
def leBytes (n : Int) : List UInt8 :=
  let m := (n % 18446744073709551616).toNat
  (List.range 8).map (fun i => UInt8.ofNat (m >>> (8 * i)))

/-- A text as the digests take it: its length, its bytes, a separator. -/
def framed (part : String) : List UInt8 := leBytes (Host.utf8 part).length ++ Host.utf8 part ++ [0x1f]

abbrev outboxKey (row : OutboxRow) : String × String := row.key

/-- `ORDER BY commit_ordinal`. -/
def byOrdinal (rows : List OrderRow) : List OrderRow :=
  rows.mergeSort (fun a b => decide (a.commitOrdinal ≤ b.commitOrdinal))

/-- The commit order joined with the outbox, in commit order. -/
def committed (db : Database) : List (OrderRow × OutboxRow) :=
  (byOrdinal db.commitOrder).filterMap (fun c =>
    (Table.select outboxKey c.key db.outbox).map (fun o => (c, o)))

def prefixBytes (row : OrderRow × OutboxRow) : List UInt8 :=
  leBytes row.1.commitOrdinal ++
  leBytes (match row.1.legacySourceRowid with | some rowid => (rowid : Int) | none => -1) ++
  framed row.1.tenantId ++ framed row.1.outboxId ++ framed row.1.orderOrigin.text ++
  framed row.2.payloadHash

/-- `order_guard_prefix_evidence`: count, last ordinal and digest of the rows up to an ordinal. -/
def orderGuardPrefixEvidence (host : Host) (db : Database) (maximumOrdinal : Option Nat) :
    Nat × Nat × String :=
  let rows := (committed db).filter (fun row =>
    match maximumOrdinal with | none => true | some m => decide (row.1.commitOrdinal ≤ m))
  (rows.length, (rows.getLast?.map (fun row => row.1.commitOrdinal)).getD 0,
    "sha256:" ++ host.sha256Hex (rows.flatMap prefixBytes))

/-- `validate_order_guard_marker`, `validate_verified_commit_marker` and
`validate_quarantine_migration_marker`. -/
def validateMarker (host : Host) (db : Database) (migration : Migration) (marker : MigrationRow) :
    Except TurnStoreError Unit :=
  ensure (orderGuardPrefixEvidence host db (some marker.sourceMaxRowid) =
      (marker.sourceRowCount, marker.sourceMaxRowid, marker.sourceDigest))
    (TurnStoreError.schemaIntegrity (migration.title ++ " migration evidence does not match its prefix"))

/-- Install a migration with its objects, its marker taken from the rows already there. -/
def install (host : Host) (migration : Migration) (objects : List SchemaObject) (appliedAt : DateTime)
    (db : Database) : Database :=
  let db := objects.foldl (fun db object => create object db) db
  let evidence := orderGuardPrefixEvidence host db none
  recordMigration migration evidence.1 evidence.2.1 evidence.2.2 appliedAt db

structure LegacyOutboxOrderRow where
  sourceRowid : Nat
  tenantId : String
  outboxId : String
  payloadHash : String
  deriving DecidableEq

/-- `legacy_outbox_order_rows`: no row is ever deleted, so rowids count the insertions. -/
def legacyOutboxOrderRows (db : Database) : List LegacyOutboxOrderRow :=
  db.outbox.zipIdx.map (fun row => ⟨row.2 + 1, row.1.tenantId, row.1.outboxId, row.1.payloadHash⟩)

/-- `legacy_outbox_order_digest`. -/
def legacyOutboxOrderDigest (host : Host) (rows : List LegacyOutboxOrderRow) : String :=
  "sha256:" ++ host.sha256Hex (rows.flatMap (fun row =>
    framed (toString row.sourceRowid) ++ framed row.tenantId ++ framed row.outboxId ++
      framed row.payloadHash))

/-- `AUTOINCREMENT`: one more than the largest ordinal ever used. -/
def nextOrdinal (db : Database) : Nat :=
  max (db.sequence.getD 0) ((db.commitOrder.map OrderRow.commitOrdinal).max?.getD 0) + 1

/-- `INSERT INTO turn_outbox_commit_order_v2`. -/
def insertOrder (tenantId outboxId : String) (origin : OrderOrigin) (legacySourceRowid : Option Nat)
    (db : Database) : Database :=
  { db with
    commitOrder := db.commitOrder ++ [⟨nextOrdinal db, tenantId, outboxId, origin, legacySourceRowid⟩]
    sequence := some (nextOrdinal db) }

end Zaion.Turn
