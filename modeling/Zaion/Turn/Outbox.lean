import Zaion.Turn.Open

/-! The outbox: the head of a tenant's queue, and the row every state change writes. -/
namespace Zaion.Turn

open Lib

/-- `tenant_outbox_head`: the first undelivered row of the tenant in commit order. -/
def tenantOutboxHead (db : Database) (tenantId : String) : Except TurnStoreError (Option String) := do
  ensure (∀ o ∈ db.outbox, o.tenantId = tenantId → ∃ c ∈ db.commitOrder, c.key = outboxKey o)
    (failIntegrity "tenant outbox contains a record without commit order")
  ensure (∀ c ∈ db.commitOrder, c.tenantId = tenantId → ∃ o ∈ db.outbox, outboxKey o = c.key)
    (failIntegrity "tenant commit order contains a record without an outbox row")
  ensure (deliveredHole db tenantId = false)
    (failIntegrity "tenant outbox delivery history contains a committed-order hole")
  match (deliveryBounds db tenantId).1 with
  | none => .ok none
  | some first =>
    .ok (((committed db).find? (fun row => row.2.tenantId = tenantId && row.1.commitOrdinal = first &&
      row.2.status ≠ .delivered)).map (fun row => row.2.outboxId))

/-- `i64::MAX`. -/
def i64MaxNat : Nat := 9223372036854775807

/-- `next_commit_ordinal`. -/
def nextCommitOrdinal (db : Database) : Except TurnStoreError Nat := do
  let maximum := (db.commitOrder.map OrderRow.commitOrdinal).max?
  ensure (db.sequence = maximum)
    (failIntegrity "outbox commit-order sequence does not match its maximum")
  ensure (maximum.getD 0 < i64MaxNat) TurnStoreError.commitOrdinalExhausted
  .ok (maximum.getD 0 + 1)

/-- `revision_to_i64`. -/
def revisionToI64 (revision : Nat) : Except TurnStoreError Nat := do
  ensure (revision ≤ i64MaxNat) (TurnStoreError.transition .revisionExhausted)
  .ok revision

/-- The payload of the event a state change is recorded by. -/
def turnPayload (turn : TurnCore) (outboxId : String) (previous : Option TurnState) (state : TurnState)
    (revision : Nat) (terminalHash : Option String) (occurredAt : String) : Json := .obj [
  ("schema", .str turnOutboxSchema),
  ("outbox_id", .str outboxId),
  ("tenant_id", .str turn.tenantId),
  ("turn_id", .str turn.turnId),
  ("actor_key", .str turn.actorKey),
  ("subject_id", .str turn.subjectId),
  ("principal_id", .str turn.principalId),
  ("workspace_id", .str turn.workspaceId),
  ("profile_id", .str turn.profileId),
  ("session_id", .str turn.sessionId),
  ("source", .obj [
    ("surface", .str turn.sourceSurface),
    ("source_id", .str turn.sourceId)]),
  ("idempotency_key", .str turn.idempotencyKey),
  ("request_hash", .str turn.requestHash),
  ("authority_hash", .str turn.authorityHash),
  ("previous_state", .ofOption (fun s : TurnState => .str s.name) previous),
  ("state", .str state.name),
  ("revision", .nat revision),
  ("terminal", .bool state.isTerminal),
  ("terminal_result_hash", .ofOption .str terminalHash),
  ("occurred_at", .str occurredAt)]

/-- What a state change writes into the outbox; `time` is its clock value in milliseconds. -/
def OutboxEntry.written (host : Host) (turn : TurnCore) (previous : Option TurnState) (state : TurnState)
    (revision : Nat) (terminalHash : Option String) (time : DateTime) : OutboxEntry :=
  let outboxId := deterministicOutboxId host turn.tenantId turn.turnId revision state.eventType
  let payloadJson := host.toText
    (turnPayload turn outboxId previous state revision terminalHash (host.rfc3339Millis time))
  { tenantId := turn.tenantId
    outboxId := outboxId
    turnId := turn.turnId
    revision := revision
    eventType := state.eventType
    effectKind := "ledger_turn_state"
    idempotencyMode := "key_required"
    payloadJson := payloadJson
    payloadHash := host.sha256Text payloadJson
    createdAtMs := time.millis }

def OutboxEntry.pending (entry : OutboxEntry) : OutboxRow :=
  { entry with
    status := .pending
    attempts := 0
    availableAtMs := entry.createdAtMs
    leaseOwner := none
    leaseToken := none
    leaseUntilMs := none
    deliveredAtMs := none
    ledgerEventId := none
    lastError := none
    updatedAtMs := entry.createdAtMs }

/-- `INSERT INTO turn_outbox_v2` under its keys, with the trigger that assigns the order. -/
def insertOutboxRow (row : OutboxRow) (db : Database) : Except TurnStoreError Database := do
  ensure (∀ o ∈ db.outbox, outboxKey o ≠ outboxKey row) (TurnStoreError.sqliteConstraint "turn_outbox_v2")
  ensure (∀ o ∈ db.outbox, ¬ (o.tenantId = row.tenantId ∧ o.turnId = row.turnId ∧
      o.revision = row.revision)) (TurnStoreError.sqliteConstraint "turn_outbox_v2")
  ensure (∃ t ∈ db.turns, t.key = (row.tenantId, row.turnId))
    (TurnStoreError.sqliteConstraint "turn_outbox_v2")
  ensure (∀ c ∈ db.commitOrder, c.key ≠ outboxKey row)
    (TurnStoreError.sqliteConstraint "turn_outbox_commit_order_v2")
  .ok (insertOrder row.tenantId row.outboxId .transactional none { db with outbox := db.outbox ++ [row] })

/-- `insert_outbox`. -/
def insertOutbox (host : Host) (record : DurableTurnRecord) (previous : Option TurnState)
    (terminalHash : Option String) (now : DateTime) (db : Database) : Except TurnStoreError Database := do
  validateNoExtraOutboxTriggers db
  let expected ← nextCommitOrdinal db
  let time ← parseTimestamp "outbox_created_at_ms" now.millis
  let _ ← revisionToI64 record.revision
  let entry := OutboxEntry.written host record.toTurnCore previous record.state record.revision
    terminalHash time
  let db ← insertOutboxRow entry.pending db
  ensure ((Table.select OrderRow.key entry.key db.commitOrder).map
      (fun c => (c.commitOrdinal, c.orderOrigin, c.legacySourceRowid)) =
      some (expected, .transactional, none))
    (failIntegrity "outbox trigger did not assign the expected transactional order")
  .ok db

end Zaion.Turn
