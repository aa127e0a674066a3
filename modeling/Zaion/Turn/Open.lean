import Zaion.Turn.Schema

/-! `DurableTurnStore::open`: install what is missing, then check everything. -/
namespace Zaion.Turn

open Lib

def failIntegrity (detail : String) : TurnStoreError := .schemaIntegrity detail

/-- Ordinals of rows that are delivered, or are not. -/
def ordinals (delivered : Bool) (rows : List (OrderRow × OutboxRow)) : List Nat :=
  (rows.filter (fun row => decide (row.2.status = .delivered) == delivered)).map
    (fun row => row.1.commitOrdinal)

/-- `MIN(CASE WHEN status != 'delivered' ..)` and `MAX(CASE WHEN status = 'delivered' ..)`. -/
def deliveryBounds (db : Database) (tenantId : String) : Option Nat × Option Nat :=
  let rows := (committed db).filter (fun row => row.2.tenantId = tenantId)
  ((ordinals false rows).min?, (ordinals true rows).max?)

/-- A delivered row of the tenant stands after an undelivered one. -/
def deliveredHole (db : Database) (tenantId : String) : Bool :=
  match deliveryBounds db tenantId with
  | (some first, some last) => decide (first < last)
  | _ => false

/-- Every foreign key of the turn store's tables has its row. -/
def foreignKeysHold (db : Database) : Prop :=
  (∀ t ∈ db.turns, ∃ a ∈ db.actors, a.key = (t.tenantId, t.actorKey)) ∧
  (∀ o ∈ db.outbox, ∃ t ∈ db.turns, t.key = (o.tenantId, o.turnId)) ∧
  (∀ c ∈ db.commitOrder, ∃ o ∈ db.outbox, outboxKey o = c.key) ∧
  (∀ v ∈ db.verifiedCommits, ∃ o ∈ db.outbox, outboxKey o = v.key) ∧
  (∀ q ∈ db.quarantines, ∃ o ∈ db.outbox, outboxKey o = q.key)

instance (db : Database) : Decidable (foreignKeysHold db) := inferInstanceAs (Decidable (_ ∧ _))

/-- Each outbox row has its place in the commit order and each place its row. -/
def mappingComplete (db : Database) : Prop :=
  (∀ o ∈ db.outbox, ∃ c ∈ db.commitOrder, c.key = outboxKey o) ∧
  (∀ c ∈ db.commitOrder, ∃ o ∈ db.outbox, outboxKey o = c.key)

instance (db : Database) : Decidable (mappingComplete db) := inferInstanceAs (Decidable (_ ∧ _))

def legacyRows (db : Database) : List LegacyOutboxOrderRow :=
  ((committed db).filter (fun row => row.1.orderOrigin = .legacyRowidBackfill)).map (fun row =>
    ⟨row.1.legacySourceRowid.getD 0, row.1.tenantId, row.1.outboxId, row.2.payloadHash⟩)

/-- Ordinals in the commit order with an origin. -/
def ordinalsFrom (origin : OrderOrigin) (db : Database) : List Nat :=
  (db.commitOrder.filter (fun c => c.orderOrigin = origin)).map OrderRow.commitOrdinal

/-- Rows of one turn, `ORDER BY revision`. -/
def turnCommits (db : Database) (tenantId turnId : String) : List (OrderRow × OutboxRow) :=
  ((committed db).filter (fun row => row.2.tenantId = tenantId && row.2.turnId = turnId)).mergeSort
    (fun a b => decide (a.2.revision ≤ b.2.revision))

/-- `LAG(commit_ordinal)` over the revisions of a turn is below `commit_ordinal`. -/
def ordinalsIncrease : List (OrderRow × OutboxRow) → Bool
  | a :: b :: rest => decide (a.1.commitOrdinal < b.1.commitOrdinal) && ordinalsIncrease (b :: rest)
  | _ => true

/-- A turn at revision `n` has `n + 1` outbox rows, their revisions from 0 to `n`. -/
def historyComplete (db : Database) (turn : TurnRow) : Prop :=
  let revisions := (db.outbox.filter (fun o => o.tenantId = turn.tenantId && o.turnId = turn.turnId)).map
    (fun o => o.revision)
  revisions.min? = some 0 ∧ revisions.max? = some turn.revision ∧ revisions.length = turn.revision + 1

instance (db : Database) (turn : TurnRow) : Decidable (historyComplete db turn) :=
  inferInstanceAs (Decidable (_ ∧ _))

/-- `validate_outbox_order_mapping`. -/
def validateOutboxOrderMapping (host : Host) (db : Database) (manifest : MigrationRow) :
    Except TurnStoreError Unit := do
  ensure (mappingComplete db) (failIntegrity "outbox commit-order mapping is incomplete or orphaned")
  ensure (foreignKeysHold db) (failIntegrity "turn store contains a foreign-key violation")
  let legacy := legacyRows db
  ensure (legacy.length = manifest.sourceRowCount ∧
      (legacy.getLast?.map LegacyOutboxOrderRow.sourceRowid).getD 0 = manifest.sourceMaxRowid ∧
      legacyOutboxOrderDigest host legacy = manifest.sourceDigest)
    (failIntegrity "legacy outbox order manifest does not match its mapping")
  let legacyOrdinals := ordinalsFrom .legacyRowidBackfill db
  ensure (0 < legacy.length → (legacyOrdinals.min?, legacyOrdinals.max?) = (some 1, some legacy.length))
    (failIntegrity "legacy outbox order is not the initial contiguous prefix")
  let ordinals := db.commitOrder.map OrderRow.commitOrdinal
  ensure (db.sequence = ordinals.max?)
    (failIntegrity "outbox commit-order sequence does not match the persisted maximum")
  ensure (∀ minimum ∈ ordinals.min?, 0 < minimum)
    (failIntegrity "outbox commit ordinals must be strictly positive")
  ensure (∀ o ∈ db.outbox, ordinalsIncrease (turnCommits db o.tenantId o.turnId) = true)
    (failIntegrity "turn revisions do not follow commit order")
  ensure (∀ first ∈ (ordinalsFrom .transactional db).min?, legacy.length < first)
    (failIntegrity "transactional outbox order overlaps the legacy prefix")
  ensure (∀ o ∈ db.outbox, deliveredHole db o.tenantId = false)
    (failIntegrity "tenant outbox delivery history contains a committed-order hole")
  ensure (∀ t ∈ db.turns, historyComplete db t) (failIntegrity "turn outbox revision history is incomplete")

/-- The legacy backfill of the commit order. -/
def installCommitOrder (host : Host) (appliedAt : DateTime) (db : Database) : Database :=
  let source := legacyOutboxOrderRows db
  let db := source.foldl (fun db row =>
    insertOrder row.tenantId row.outboxId .legacyRowidBackfill (some row.sourceRowid) db)
    (create .orderTable db)
  let db := recordMigration .order source.length ((source.getLast?.map LegacyOutboxOrderRow.sourceRowid).getD 0)
    (legacyOutboxOrderDigest host source) appliedAt db
  create .orderTrigger (create .revisionIndex (create .orderIndex db))

/-- A migration whose objects are all there with its marker, or none of them without it. -/
def ensureMigration (host : Host) (migration : Migration) (objects : List SchemaObject)
    (existed : List Bool) (missing : String) (appliedAt : DateTime) (db : Database) :
    Except TurnStoreError Database := do
  match ← loadMarker db migration with
  | none =>
    ensure (existed.all (!·) = true)
      (failIntegrity (migration.title ++ " objects exist without their migration marker"))
    .ok (install host migration objects appliedAt db)
  | some _ =>
    ensure (existed.all (·) = true) (failIntegrity missing)
    .ok db

def requireMarker (db : Database) (migration : Migration) (missing : String) :
    Except TurnStoreError MigrationRow := do
  required (← loadMarker db migration) (failIntegrity missing)

/-- What `ensure_outbox_commit_order_schema` checks once everything is installed. -/
def validateCommitOrderSchema (host : Host) (db : Database) : Except TurnStoreError Unit := do
  checkAll (validateSchemaObject db)
    [.orderTable, .migrationTable, .orderIndex, .revisionIndex, .orderTrigger, .orderUpdateGuard,
      .orderDeleteGuard]
  checkAll (validateSchemaObject db) orderTriggers
  validateOutboxTriggerAllowlist db
  let guardMarker ← requireMarker db .orderGuard "outbox order guard migration marker is missing"
  validateMarker host db .orderGuard guardMarker
  let manifest ← requireMarker db .order "outbox order migration marker disappeared"
  validateOutboxOrderMapping host db manifest

/-- `ensure_outbox_commit_order_schema`. -/
def ensureOutboxCommitOrderSchema (host : Host) (appliedAt : DateTime) (db : Database) :
    Except TurnStoreError Database := do
  let objects : List SchemaObject := [.orderTable, .orderIndex, .revisionIndex, .orderTrigger]
  let guards : List SchemaObject := [.orderUpdateGuard, .orderDeleteGuard]
  let existed := objects.map (schemaObjectExists db)
  let guardsExisted := guards.map (schemaObjectExists db)
  let db := if schemaObjectExists db .migrationTable then db else create .migrationTable db
  let db ← match ← loadMarker db .order with
    | none => do
      ensure ((existed ++ guardsExisted).all (!·) = true)
        (failIntegrity "outbox order objects exist without their migration marker")
      Except.ok (installCommitOrder host appliedAt db)
    | some _ => do
      ensure (existed.all (·) = true)
        (failIntegrity "outbox order migration marker exists but a required schema object is missing")
      Except.ok db
  let db ← ensureMigration host .orderGuard guards guardsExisted
    "outbox order guard migration marker exists but a guard is missing" appliedAt db
  validateCommitOrderSchema host db
  .ok db

/-- `validate_quarantine_rows`. -/
def quarantineRowsMatch (db : Database) : Prop :=
  ∀ q ∈ db.quarantines, ∃ o ∈ db.outbox, outboxKey o = q.key ∧ o.status ≠ .delivered ∧
    o.payloadHash = q.payloadHash ∧ q.attempts ≤ o.attempts ∧
    (∃ c ∈ db.commitOrder, c.key = q.key ∧ c.commitOrdinal = q.commitOrdinal) ∧
    ∃ t ∈ db.turns, t.key = (o.tenantId, o.turnId) ∧ t.principalId = q.principalId

instance (db : Database) : Decidable (quarantineRowsMatch db) :=
  inferInstanceAs (Decidable (∀ _ ∈ _, _))

/-- What `ensure_outbox_dispatcher_schema` checks once everything is installed. -/
def validateDispatcherSchema (host : Host) (db : Database) : Except TurnStoreError Unit := do
  checkAll (validateSchemaObject db) (.quarantineTable :: quarantineTriggers)
  let marker ← requireMarker db .quarantine "outbox quarantine migration marker disappeared"
  validateMarker host db .quarantine marker
  ensure (quarantineRowsMatch db) (failIntegrity "outbox quarantine evidence is orphaned or mismatched")

/-- `ensure_outbox_dispatcher_schema`. -/
def ensureOutboxDispatcherSchema (host : Host) (appliedAt : DateTime) (db : Database) :
    Except TurnStoreError Database := do
  let objects := .quarantineTable :: quarantineTriggers
  let db ← ensureMigration host .quarantine objects (objects.map (schemaObjectExists db))
    "outbox quarantine migration marker exists but a required object is missing" appliedAt db
  validateDispatcherSchema host db
  .ok db

/-- `validate_verified_commit_rows`: evidence is that of a delivered row, and a row delivered
since the migration has evidence. -/
def evidenceRowsMatch (db : Database) : Prop :=
  ∀ v ∈ db.verifiedCommits, ∃ o ∈ db.outbox, outboxKey o = v.key ∧ o.status = .delivered ∧
    o.ledgerEventId = some v.ledgerEventId ∧ v.databaseInstanceId = db.instanceId

def deliveriesVerified (db : Database) (migratedUpTo : Nat) : Prop :=
  ∀ row ∈ committed db, row.2.status = .delivered → migratedUpTo < row.1.commitOrdinal →
    ∃ v ∈ db.verifiedCommits, v.key = outboxKey row.2

instance (db : Database) : Decidable (evidenceRowsMatch db) := inferInstanceAs (Decidable (∀ _ ∈ _, _))
instance (db : Database) (n : Nat) : Decidable (deliveriesVerified db n) :=
  inferInstanceAs (Decidable (∀ _ ∈ _, _))

/-- What `ensure_outbox_verified_commit_schema` checks once everything is installed. -/
def validateVerifiedCommitSchema (host : Host) (db : Database) : Except TurnStoreError Unit := do
  checkAll (validateSchemaObject db) (.verifiedCommitTable :: verifiedCommitTriggers)
  validateNoExtraOutboxTriggers db
  let marker ← requireMarker db .verifiedCommit "verified outbox commit migration marker disappeared"
  validateMarker host db .verifiedCommit marker
  ensure (evidenceRowsMatch db) (failIntegrity "verified outbox commit evidence is orphaned or mismatched")
  ensure (deliveriesVerified db marker.sourceMaxRowid)
    (failIntegrity "post-migration delivered outbox row lacks verified commit evidence")

/-- `ensure_outbox_verified_commit_schema`. -/
def ensureOutboxVerifiedCommitSchema (host : Host) (appliedAt : DateTime) (db : Database) :
    Except TurnStoreError Database := do
  let objects := .verifiedCommitTable :: verifiedCommitTriggers
  let db ← ensureMigration host .verifiedCommit objects (objects.map (schemaObjectExists db))
    "verified outbox commit migration marker exists but a required object is missing" appliedAt db
  validateVerifiedCommitSchema host db
  .ok db

/-- `DurableTurnStore::open`, the clock read once for each of its three steps. -/
def openStore (host : Host) (orderAt quarantineAt verifiedAt : DateTime) (db : Database) :
    Except TurnStoreError Database := do
  let db ← ensureOutboxCommitOrderSchema host orderAt db
  let db ← ensureOutboxDispatcherSchema host quarantineAt db
  ensureOutboxVerifiedCommitSchema host verifiedAt db

end Zaion.Turn
