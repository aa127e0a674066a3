import Zaion.Ledger.Binding
import Zaion.Turn.Outbox

/-! `validate_turn_history`: before an event is signed, the whole history of its turn is
read back from the outbox and checked against the turn. -/
namespace Zaion.Turn

open Lib Ledger

structure ValidatedHistoryEntry where
  outbox : TurnOutboxRecord
  state : TurnState
  binding : IdempotentEventBinding

/-- Field, path into the payload, and column of `validate_outbox_identity`. -/
def TurnCore.outboxBindings (turn : TurnCore) : List (String × List String × String) := [
  ("outbox.actor_key", ["actor_key"], turn.actorKey),
  ("outbox.subject_id", ["subject_id"], turn.subjectId),
  ("outbox.principal_id", ["principal_id"], turn.principalId),
  ("outbox.workspace_id", ["workspace_id"], turn.workspaceId),
  ("outbox.profile_id", ["profile_id"], turn.profileId),
  ("outbox.session_id", ["session_id"], turn.sessionId),
  ("outbox.source_surface", ["source", "surface"], turn.sourceSurface),
  ("outbox.source_id", ["source", "source_id"], turn.sourceId),
  ("outbox.idempotency_key", ["idempotency_key"], turn.idempotencyKey),
  ("outbox.request_hash", ["request_hash"], turn.requestHash),
  ("outbox.authority_hash", ["authority_hash"], turn.authorityHash)]

def payloadFields : List String := ["schema", "outbox_id", "tenant_id", "turn_id", "actor_key",
  "subject_id", "principal_id", "workspace_id", "profile_id", "session_id", "source",
  "idempotency_key", "request_hash", "authority_hash", "previous_state", "state", "revision",
  "terminal", "terminal_result_hash", "occurred_at"]

/-- An object with these fields and no other. -/
def hasFields (names : List String) (fields : List (String × Json)) : Bool :=
  fields.length = names.length && names.all (fun name => (Json.lookup name fields).isSome)

/-- `validate_outbox_payload_shape`. -/
def validateOutboxPayloadShape (payload : Json) : Except TurnStoreError Unit := do
  let fields ← required payload.asObject (TurnStoreError.recordBindingMismatch "outbox.payload_shape")
  ensure (hasFields payloadFields fields = true) (TurnStoreError.recordBindingMismatch "outbox.payload_shape")
  let source ← required ((Json.lookup "source" fields).bind Json.asObject)
    (TurnStoreError.recordBindingMismatch "outbox.source_shape")
  ensure (hasFields ["surface", "source_id"] source = true)
    (TurnStoreError.recordBindingMismatch "outbox.source_shape")

/-- `validate_outbox_identity`. -/
def validateOutboxIdentity (host : Host) (record : TurnOutboxRecord) (turn : TurnCore) :
    Except TurnStoreError Unit := do
  validateOutboxPayloadShape record.payload
  checkAll (fun b => verifyJsonTextBinding record.payload b.2.1 b.2.2 b.1) turn.outboxBindings
  ensure (record.effectKind = "ledger_turn_state")
    (TurnStoreError.recordBindingMismatch "outbox.effect_kind")
  ensure (record.idempotencyMode = "key_required")
    (TurnStoreError.recordBindingMismatch "outbox.idempotency_mode")
  let text ← required (record.payload.textAt ["occurred_at"])
    (TurnStoreError.recordBindingMismatch "outbox.occurred_at")
  let occurredAt ← required (host.parseRfc3339 text)
    (TurnStoreError.recordBindingMismatch "outbox.occurred_at")
  ensure (occurredAt.millis = record.createdAt.millis)
    (TurnStoreError.recordBindingMismatch "outbox.occurred_at")
  ensure (startsWithText record.eventType "turn.state." = true → text = host.rfc3339Millis record.createdAt)
    (TurnStoreError.recordBindingMismatch "outbox.occurred_at")

/-- `outbox_payload_state`. -/
def outboxPayloadState (record : TurnOutboxRecord) : Except TurnStoreError TurnState := do
  let text ← required (record.payload.textAt ["state"])
    (TurnStoreError.recordBindingMismatch "outbox.state")
  required (TurnState.parse? text) (TurnStoreError.corruptState text)

/-- `validate_history_transition`. -/
def validateHistoryTransition (record : TurnOutboxRecord) (state : TurnState)
    (previous : Option ValidatedHistoryEntry) : Except TurnStoreError Unit :=
  match previous with
  | none => do
    ensure (record.revision = 0 ∧ state = .accepted) (TurnStoreError.outboxHistoryGenesis record.revision)
    ensure (record.payload.get "previous_state" = some .null)
      (TurnStoreError.outboxHistoryPreviousState record.revision)
  | some previous => do
    ensure (record.payload.textAt ["previous_state"] = some previous.state.name)
      (TurnStoreError.outboxHistoryPreviousState record.revision)
    ensure (previous.state.canTransitionTo state = true)
      (TurnStoreError.outboxHistoryIllegalTransition record.revision previous.state state)

/-- `validate_terminal_binding`. -/
def validateTerminalBinding (record : TurnOutboxRecord) (state : TurnState) (turn : TurnRow) :
    Except TurnStoreError Unit := do
  ensure ((record.payload.pointer ["terminal"]).bind Json.asBool = some state.isTerminal)
    (TurnStoreError.recordBindingMismatch "outbox.terminal")
  let terminalHash ← required (record.payload.get "terminal_result_hash")
    (TurnStoreError.recordBindingMismatch "outbox.terminal_result_hash")
  if state.isTerminal = true then
    ensure (record.revision = turn.revision ∧ terminalHash.asStr = turn.terminalHash)
      (TurnStoreError.recordBindingMismatch "outbox.terminal_result_hash")
  else
    ensure (terminalHash = .null) (TurnStoreError.recordBindingMismatch "outbox.terminal_result_hash")

/-- Commit order and creation time do not go back from one row to the next. -/
def validateSuccession (record : TurnOutboxRecord) (turnId : String) :
    Option ValidatedHistoryEntry → Except TurnStoreError Unit
  | none => .ok ()
  | some previous => do
    ensure (previous.outbox.commitOrdinal < record.commitOrdinal)
      (TurnStoreError.outboxHistoryIncomplete turnId)
    ensure (previous.outbox.createdAt ≤ record.createdAt) TurnStoreError.nonMonotonicTimestamp

/-- A delivered row follows delivered rows only and names the event of its binding. -/
def validateDelivery (host : Host) (record : TurnOutboxRecord) (binding : IdempotentEventBinding)
    (undeliveredSeen : Bool) : Except TurnStoreError Unit :=
  if record.status = .delivered then do
    ensure (undeliveredSeen = false) (TurnStoreError.outboxDeliveredPrefix record.revision)
    ensure (record.ledgerEventId = some (binding.expectedEventId host))
      (TurnStoreError.outboxLedgerEventMismatch record.revision)
  else .ok ()

/-- The event a row of the outbox stands for. -/
def TurnOutboxRecord.binding (host : Host) (record : TurnOutboxRecord) (turn : TurnCore)
    (previous : Option ValidatedHistoryEntry) : IdempotentEventBinding where
  idempotencyKey := record.outboxId
  principalId := turn.principalId
  namespaceKey := turn.sessionId
  runId := some turn.turnId
  eventType := record.eventType
  payload := record.payload
  parentEventId := previous.map (fun p => p.binding.expectedEventId host)

/-- The loop of `validate_turn_history`: rows left, expected revision, last validated row, and
whether an undelivered row has been seen. -/
def validateHistoryRows (host : Host) (turn : TurnRow) :
    List TurnOutboxRecord → Nat → Option ValidatedHistoryEntry → Bool →
      Except TurnStoreError (List ValidatedHistoryEntry)
  | [], _, _, _ => .ok []
  | record :: rest, index, previous, undeliveredSeen => do
    ensure (record.revision = index) (TurnStoreError.outboxHistoryRevision index record.revision)
    validateSuccession record turn.turnId previous
    validateOutboxIdentity host record turn.toTurnCore
    let state ← outboxPayloadState record
    validateHistoryTransition record state previous
    validateTerminalBinding record state turn
    let binding ← (record.binding host turn.toTurnCore previous).new.mapError .ledger
    validateDelivery host record binding undeliveredSeen
    let entry : ValidatedHistoryEntry := ⟨record, state, binding⟩
    let others ← validateHistoryRows host turn rest (index + 1) (some entry)
      (undeliveredSeen || decide (record.status ≠ .delivered))
    .ok (entry :: others)

/-- The outbox rows of a turn, `ORDER BY revision`. -/
def turnOutboxRows (db : Database) (tenantId turnId : String) : List OutboxRow :=
  (db.outbox.filter (fun o => o.tenantId = tenantId && o.turnId = turnId)).mergeSort
    (fun a b => decide (a.revision ≤ b.revision))

/-- First and last row of a history against the turn's row. -/
def validateHistoryEnds (turn : DurableTurnRecord) (history : List ValidatedHistoryEntry) :
    Except TurnStoreError Unit := do
  let first ← required history.head? (TurnStoreError.outboxHistoryIncomplete turn.turnId)
  let last ← required history.getLast? (TurnStoreError.outboxHistoryIncomplete turn.turnId)
  ensure (first.state = .accepted ∧ first.outbox.createdAt = turn.createdAt ∧ last.state = turn.state ∧
      last.outbox.revision = turn.revision ∧ last.outbox.createdAt = turn.updatedAt)
    (TurnStoreError.outboxHistoryCurrentTurn turn.turnId)

/-- `validate_turn_history`. -/
def validateTurnHistory (host : Host) (db : Database) (turn : DurableTurnRecord) :
    Except TurnStoreError (List ValidatedHistoryEntry) := do
  let found ← mapAll (selectOutbox host db) (turnOutboxRows db turn.tenantId turn.turnId)
  let records := found.filterMap (fun record => record)
  ensure (turn.revision < u64Max ∧ records.length = turn.revision + 1)
    (TurnStoreError.outboxHistoryIncomplete turn.turnId)
  let history ← validateHistoryRows host turn.toTurnRow records 0 none false
  validateHistoryEnds turn history
  .ok history

end Zaion.Turn
