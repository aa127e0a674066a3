import Zaion.Turn.Execution
import Zaion.Turn.Ingress
import Zaion.Turn.Tables

/-! Reading rows of the turn store. Every read re-checks the hashes, the bindings between
a row's columns and its JSON, and the shape its status calls for. -/
namespace Zaion.Turn

open Lib

def turnOutboxSchema : String := "zaion.turn_state_outbox.v2"

/-- `deterministic_turn_id`. -/
def deterministicTurnId (host : Host) (tenantId idempotencyKey requestHash : String) : String :=
  "turn-" ++ host.shortHash [tenantId, idempotencyKey, requestHash]

/-- `deterministic_outbox_id`. -/
def deterministicOutboxId (host : Host) (tenantId turnId : String) (revision : Nat)
    (eventType : String) : String :=
  "outbox-" ++ host.shortHash [tenantId, turnId, toString revision, eventType]

/-- `parse_timestamp`. -/
def parseTimestamp (field : String) (value : Int) : Except TurnStoreError DateTime :=
  required (DateTime.ofMillis? value) (.corruptTimestamp field value)

def parseTimestampOption (field : String) : Option Int → Except TurnStoreError (Option DateTime)
  | none => .ok none
  | some value => some <$> parseTimestamp field value

/-- `verify_stored_hash`. -/
def verifyStoredHash (host : Host) (field canonicalJson storedHash : String) :
    Except TurnStoreError Unit :=
  ensure (host.sha256Text canonicalJson = storedHash) (TurnStoreError.hashMismatch field)

/-- `verify_json_text_binding`. -/
def verifyJsonTextBinding (value : Json) (path : List String) (actual field : String) :
    Except TurnStoreError Unit :=
  ensure (value.textAt path = some actual) (TurnStoreError.recordBindingMismatch field)

/-! Texts of an object by field. -/

theorem textAt_cons_self (key : String) (v : Json) (rest : List (String × Json)) (path : List String) :
    (Json.obj ((key, v) :: rest)).textAt (key :: path) = v.textAt path := by
  simp [Json.textAt,Json.pointer,Json.get,Json.lookup]

theorem textAt_cons_other {key k : String} (other : k ≠ key) (v : Json) (rest : List (String × Json)) (path : List String) :
    (Json.obj ((k, v) :: rest)).textAt (key :: path) = (Json.obj rest).textAt (key :: path) := by
  simp [Json.textAt,Json.pointer,Json.get,Json.lookup,other]

theorem textAt_str (text : String) : (Json.str text).textAt [] = some text := rfl

/-- Field, path into the authority, and column of `verify_turn_bindings`. -/
def TurnCore.bindings (row : TurnCore) : List (String × List String × String) := [
  ("tenant_id", ["tenant_id"], row.tenantId),
  ("subject_id", ["subject_id"], row.subjectId),
  ("principal_id", ["principal_id"], row.principalId),
  ("workspace_id", ["workspace_id"], row.workspaceId),
  ("profile_id", ["profile_id"], row.profileId),
  ("session_id", ["session_id"], row.sessionId),
  ("source_surface", ["source", "surface"], row.sourceSurface),
  ("source_id", ["source", "source_id"], row.sourceId),
  ("idempotency_key", ["idempotency_key"], row.idempotencyKey)]

def verifyTurnBindings (host : Host) (row : TurnCore) (authority : Json) :
    Except TurnStoreError Unit := do
  checkAll (fun b => verifyJsonTextBinding authority b.2.1 b.2.2 b.1) row.bindings
  let deadline ← required ((authority.textAt ["deadline"]).bind host.parseRfc3339)
    (TurnStoreError.recordBindingMismatch "deadline_ms")
  ensure (deadline.millis = row.deadlineMs) (TurnStoreError.recordBindingMismatch "deadline_ms")
  ensure (deterministicTurnId host row.tenantId row.idempotencyKey row.requestHash = row.turnId)
    (TurnStoreError.recordBindingMismatch "turn_id")

/-- `validate_persisted_terminal`. -/
def validatePersistedTerminal (state : TurnState) (terminalResult : Option Json) :
    Except TurnStoreError Unit :=
  match state.isTerminal, terminalResult with
  | false, none => .ok ()
  | false, some _ => .error .nonTerminalResult
  | true, none => .error .missingTerminalResult
  | true, some result => do
    let execution ← required (TurnExecution.ofJson? result) TurnStoreError.json
    ensure (execution.terminalState = state)
      (TurnStoreError.terminalOutcomeMismatch state execution.terminalState)

def verifyTerminalHash (host : Host) (json hash : Option String) : Except TurnStoreError Unit :=
  match json, hash with
  | some json, some hash => verifyStoredHash host "terminal_result_hash" json hash
  | none, none => .ok ()
  | _, _ => .error (.hashMismatch "terminal_result_hash")

/-- `serde_json::from_str`. -/
def fromText (host : Host) (text : String) : Except TurnStoreError Json :=
  required (host.ofText text) .json

def fromTextOption (host : Host) : Option String → Except TurnStoreError (Option Json)
  | none => .ok none
  | some text => some <$> fromText host text

/-- `materialize_turn`. -/
def materializeTurn (host : Host) (row : TurnRow) : Except TurnStoreError DurableTurnRecord := do
  verifyStoredHash host "request_hash" row.requestJson row.requestHash
  verifyStoredHash host "authority_hash" row.authorityJson row.authorityHash
  verifyTerminalHash host row.terminalJson row.terminalHash
  let request ← fromText host row.requestJson
  let authority ← fromText host row.authorityJson
  verifyTurnBindings host row.toTurnCore authority
  let terminalResult ← fromTextOption host row.terminalJson
  validatePersistedTerminal row.state terminalResult
  let deadline ← parseTimestamp "deadline_ms" row.deadlineMs
  let createdAt ← parseTimestamp "created_at_ms" row.createdAtMs
  let updatedAt ← parseTimestamp "updated_at_ms" row.updatedAtMs
  .ok { row with request, authority, terminalResult, deadline, createdAt, updatedAt }

/-- The parsed columns of a record are those of its row. -/
structure DurableTurnRecord.Reads (record : DurableTurnRecord) (row : TurnRow) : Prop where
  columns : record.toTurnRow = row
  deadline : DateTime.ofMillis? row.deadlineMs = some record.deadline
  createdAt : DateTime.ofMillis? row.createdAtMs = some record.createdAt
  updatedAt : DateTime.ofMillis? row.updatedAtMs = some record.updatedAt

theorem materializeTurn_reads {host : Host} {row : TurnRow} {record : DurableTurnRecord}
    (read : materializeTurn host row = .ok record) : record.Reads row := by
  simp only [materializeTurn,bind_ok_iff,parseTimestamp,required_ok_iff] at read
  obtain ⟨_, _, _, _, _, _, request, _, authority, _, _, _, terminal, _, _, _, deadline, hd, created, hc,
    updated, hu, result⟩ := read
  cases result
  exact ⟨rfl, hd, hc, hu⟩

/-- `load_turn`. -/
def loadTurn (host : Host) (db : Database) (tenantId turnId : String) :
    Except TurnStoreError (Option DurableTurnRecord) :=
  match Table.select TurnRow.key (tenantId, turnId) db.turns with
  | none => .ok none
  | some row => some <$> materializeTurn host row

/-- `load_by_idempotency`. -/
def loadByIdempotency (host : Host) (db : Database) (tenantId idempotencyKey : String) :
    Except TurnStoreError (Option DurableTurnRecord) :=
  match Table.select TurnRow.admission (tenantId, idempotencyKey) db.turns with
  | none => .ok none
  | some row => some <$> materializeTurn host row

/-- `load_turn` where the row must be there. -/
def requireTurn (host : Host) (db : Database) (tenantId turnId : String) :
    Except TurnStoreError DurableTurnRecord := do
  required (← loadTurn host db tenantId turnId) (.missingTurn tenantId turnId)

theorem requireTurn_ok_iff {host : Host} {db : Database} {tenantId turnId : String}
    {record : DurableTurnRecord} :
    requireTurn host db tenantId turnId = .ok record ↔
      ∃ row, Table.select TurnRow.key (tenantId, turnId) db.turns = some row ∧
        materializeTurn host row = .ok record := by
  simp only [requireTurn,loadTurn,bind_ok_iff,required_ok_iff]
  cases Table.select TurnRow.key (tenantId, turnId) db.turns with
  | none => simp
  | some row => simp [map_ok_iff]

theorem parseTimestampOption_ok_iff {field : String} {value : Option Int} {time : Option DateTime} :
    parseTimestampOption field value = .ok time ↔
      (value = none ∧ time = none) ∨
        ∃ ms t, value = some ms ∧ time = some t ∧ DateTime.ofMillis? ms = some t := by
  cases value with
  | none => simp [parseTimestampOption,eq_comm]
  | some ms =>
    simp only [parseTimestampOption,parseTimestamp,map_ok_iff,required_ok_iff]
    constructor
    · rintro ⟨t, parsed, rfl⟩
      exact Or.inr ⟨ms, t, rfl, rfl, parsed⟩
    · rintro (⟨absurd, _⟩ | ⟨_, t, same, rfl, parsed⟩)
      · cases absurd
      · cases same
        exact ⟨t, parsed, rfl⟩

def readActor (row : ActorRow) : Except TurnStoreError TurnActorRecord := do
  let leaseUntil ← parseTimestampOption "lease_until_ms" row.leaseUntilMs
  let createdAt ← parseTimestamp "created_at_ms" row.createdAtMs
  let updatedAt ← parseTimestamp "updated_at_ms" row.updatedAtMs
  .ok { row with leaseUntil, createdAt, updatedAt }

/-- `row_to_actor`; a failed conversion reaches the caller as an error of the query. -/
def rowToActor (row : ActorRow) : Except TurnStoreError TurnActorRecord :=
  (readActor row).mapError .sqliteConversion

/-- `load_actor`. -/
def loadActor (db : Database) (tenantId actorKey : String) :
    Except TurnStoreError (Option TurnActorRecord) :=
  match Table.select ActorRow.key (tenantId, actorKey) db.actors with
  | none => .ok none
  | some row => some <$> rowToActor row

/-- `load_actor` where the row must be there. -/
def requireActor (db : Database) (tenantId actorKey : String) (missing : TurnStoreError) :
    Except TurnStoreError TurnActorRecord := do
  required (← loadActor db tenantId actorKey) missing

structure TurnActorRecord.Reads (record : TurnActorRecord) (row : ActorRow) : Prop where
  columns : record.toActorRow = row
  leaseUntil : parseTimestampOption "lease_until_ms" row.leaseUntilMs = .ok record.leaseUntil

theorem rowToActor_reads {row : ActorRow} {record : TurnActorRecord}
    (read : rowToActor row = .ok record) : record.Reads row := by
  simp only [rowToActor,mapError_ok_iff,readActor,bind_ok_iff] at read
  obtain ⟨_, hl, _, _, _, _, result⟩ := read
  cases result
  exact ⟨rfl, hl⟩

theorem requireActor_ok_iff {db : Database} {tenantId actorKey : String} {missing : TurnStoreError}
    {record : TurnActorRecord} :
    requireActor db tenantId actorKey missing = .ok record ↔
      ∃ row, Table.select ActorRow.key (tenantId, actorKey) db.actors = some row ∧
        rowToActor row = .ok record := by
  simp only [requireActor,loadActor,bind_ok_iff,required_ok_iff]
  cases Table.select ActorRow.key (tenantId, actorKey) db.actors with
  | none => simp
  | some row => simp [map_ok_iff]

/-- `outbox_event_type_matches`: rows of earlier releases say `turn.*`. -/
def outboxEventTypeMatches (eventType state : String) : Bool :=
  eventType = "turn.state." ++ state || eventType = "turn." ++ state

def verifyOutboxBindings (host : Host) (row : OutboxEntry) (payload : Json) :
    Except TurnStoreError Unit := do
  verifyJsonTextBinding payload ["schema"] turnOutboxSchema "outbox.schema"
  verifyJsonTextBinding payload ["outbox_id"] row.outboxId "outbox.outbox_id"
  verifyJsonTextBinding payload ["tenant_id"] row.tenantId "outbox.tenant_id"
  verifyJsonTextBinding payload ["turn_id"] row.turnId "outbox.turn_id"
  ensure ((payload.pointer ["revision"]).bind Json.asU64 = some row.revision)
    (TurnStoreError.recordBindingMismatch "outbox.revision")
  let state ← required (payload.textAt ["state"])
    (TurnStoreError.recordBindingMismatch "outbox.event_type")
  ensure (outboxEventTypeMatches row.eventType state = true)
    (TurnStoreError.recordBindingMismatch "outbox.event_type")
  ensure (row.effectKind = "ledger_turn_state")
    (TurnStoreError.recordBindingMismatch "outbox.effect_kind")
  ensure (row.idempotencyMode = "key_required")
    (TurnStoreError.recordBindingMismatch "outbox.idempotency_mode")
  ensure (deterministicOutboxId host row.tenantId row.turnId row.revision row.eventType = row.outboxId)
    (TurnStoreError.recordBindingMismatch "outbox.outbox_id")

/-- The columns a status needs and the columns it excludes, also a `CHECK` of the table. -/
def OutboxRow.shapeMatches (row : OutboxRow) : Bool :=
  match row.status with
  | .pending => row.leaseOwner.isNone && row.leaseToken.isNone && row.leaseUntilMs.isNone &&
      row.deliveredAtMs.isNone && row.ledgerEventId.isNone
  | .leased => row.leaseOwner.isSome && row.leaseToken.isSome && row.leaseUntilMs.isSome &&
      row.deliveredAtMs.isNone && row.ledgerEventId.isNone
  | .delivered => row.leaseOwner.isNone && row.leaseToken.isNone && row.leaseUntilMs.isNone &&
      row.deliveredAtMs.isSome && row.ledgerEventId.isSome

/-- Commit evidence belongs to a delivered row and names its ledger event. -/
def OutboxRow.evidenceMatches (row : OutboxRow) : Option EvidenceRow → Bool
  | none => true
  | some evidence => row.status = .delivered && evidence.signerPublicKey.length = 32 &&
      evidence.databaseInstanceId ≠ "" && row.ledgerEventId = some evidence.ledgerEventId

/-- No timestamp precedes the creation of the row. -/
def OutboxRow.timestampsOrdered (row : OutboxRow) : Prop :=
  row.createdAtMs ≤ row.availableAtMs ∧ row.createdAtMs ≤ row.updatedAtMs ∧
    (∀ ms ∈ row.leaseUntilMs, row.createdAtMs ≤ ms) ∧ (∀ ms ∈ row.deliveredAtMs, row.createdAtMs ≤ ms)

instance (row : OutboxRow) : Decidable row.timestampsOrdered := inferInstanceAs (Decidable (_ ∧ _))

def validateOutboxStatusBindings (row : OutboxRow) (verified : Option EvidenceRow) :
    Except TurnStoreError Unit := do
  ensure (row.shapeMatches = true) (TurnStoreError.recordBindingMismatch "outbox.status_fields")
  ensure (row.evidenceMatches verified = true) (TurnStoreError.recordBindingMismatch "outbox.verified_commit")
  ensure row.timestampsOrdered (TurnStoreError.recordBindingMismatch "outbox.timestamps")

/-- `materialize_outbox`. -/
def materializeOutbox (host : Host) (row : OutboxRow) (order : OrderRow) (verified : Option EvidenceRow) :
    Except TurnStoreError TurnOutboxRecord := do
  verifyStoredHash host "outbox_payload_hash" row.payloadJson row.payloadHash
  let payload ← fromText host row.payloadJson
  verifyOutboxBindings host row.toOutboxEntry payload
  ensure (order.commitOrdinal ≠ 0) (TurnStoreError.schemaIntegrity "outbox commit ordinal must be positive")
  validateOutboxStatusBindings row verified
  let availableAt ← parseTimestamp "available_at_ms" row.availableAtMs
  let leaseUntil ← parseTimestampOption "lease_until_ms" row.leaseUntilMs
  let deliveredAt ← parseTimestampOption "delivered_at_ms" row.deliveredAtMs
  let createdAt ← parseTimestamp "created_at_ms" row.createdAtMs
  let updatedAt ← parseTimestamp "updated_at_ms" row.updatedAtMs
  .ok { row with
        commitOrdinal := order.commitOrdinal, orderOrigin := order.orderOrigin, payload, verified,
        availableAt, leaseUntil, deliveredAt, createdAt, updatedAt }

/-- A row under `OUTBOX_SELECT`: an inner join with the commit order, a left join with the
evidence. -/
def selectOutbox (host : Host) (db : Database) (row : OutboxRow) :
    Except TurnStoreError (Option TurnOutboxRecord) :=
  match Table.select OrderRow.key row.key db.commitOrder with
  | none => .ok none
  | some order =>
    some <$> materializeOutbox host row order (Table.select EvidenceRow.key row.key db.verifiedCommits)

/-- `load_outbox` where the row must be there. -/
def requireOutbox (host : Host) (db : Database) (tenantId outboxId : String) :
    Except TurnStoreError TurnOutboxRecord :=
  match Table.select (fun row : OutboxRow => row.key) (tenantId, outboxId) db.outbox with
  | none => .error (.missingOutbox tenantId outboxId)
  | some row => do
    required (← selectOutbox host db row) (.missingOutbox tenantId outboxId)

/-- What a record of the outbox says of the row, its order and its evidence. -/
structure TurnOutboxRecord.Reads (record : TurnOutboxRecord) (db : Database) (row : OutboxRow) : Prop where
  columns : record.toOutboxRow = row
  order : ∃ order, Table.select OrderRow.key row.key db.commitOrder = some order ∧
    record.commitOrdinal = order.commitOrdinal ∧ record.orderOrigin = order.orderOrigin
  verified : record.verified = Table.select EvidenceRow.key row.key db.verifiedCommits
  shape : row.shapeMatches = true
  evidence : row.evidenceMatches record.verified = true
  timestamps : row.timestampsOrdered
  availableAt : DateTime.ofMillis? row.availableAtMs = some record.availableAt
  leaseUntil : parseTimestampOption "lease_until_ms" row.leaseUntilMs = .ok record.leaseUntil
  createdAt : DateTime.ofMillis? row.createdAtMs = some record.createdAt
  updatedAt : DateTime.ofMillis? row.updatedAtMs = some record.updatedAt

theorem selectOutbox_reads {host : Host} {db : Database} {row : OutboxRow} {record : TurnOutboxRecord}
    (read : selectOutbox host db row = .ok (some record)) : record.Reads db row := by
  unfold selectOutbox at read
  cases found : Table.select OrderRow.key row.key db.commitOrder with
  | none => simp [found] at read
  | some order =>
    simp only [found,map_ok_iff,Option.some.injEq,exists_eq_right,materializeOutbox,
      validateOutboxStatusBindings,bind_ok_iff,ensure_ok_iff,parseTimestamp,required_ok_iff] at read
    obtain ⟨_, _, payload, _, _, _, _, _, _, ⟨_, shape, _, evidence, timestamps⟩, available, ha, lease, hl,
      _, _, created, hc, updated, hu, result⟩ := read
    cases result
    exact ⟨rfl, ⟨order, found, rfl, rfl⟩, rfl, shape, evidence, timestamps, ha, hl, hc, hu⟩

theorem selectOutbox_payload {host : Host} {db : Database} {row : OutboxRow} {record : TurnOutboxRecord}
    (read : selectOutbox host db row = .ok (some record)) : fromText host row.payloadJson = .ok record.payload := by
  unfold selectOutbox at read
  split at read
  · cases read
  · simp only [map_ok_iff,Option.some.injEq,exists_eq_right,materializeOutbox,bind_ok_iff] at read
    obtain ⟨_, _, payload, parsed, _, _, _, _, _, _, _, _, _, _, _, _, _, _, _, _, result⟩ := read
    cases result
    exact parsed

theorem requireOutbox_ok_iff {host : Host} {db : Database} {tenantId outboxId : String}
    {record : TurnOutboxRecord} :
    requireOutbox host db tenantId outboxId = .ok record ↔
      ∃ row, Table.select (fun row : OutboxRow => row.key) (tenantId, outboxId) db.outbox = some row ∧
        selectOutbox host db row = .ok (some record) := by
  unfold requireOutbox
  cases Table.select (fun row : OutboxRow => row.key) (tenantId, outboxId) db.outbox with
  | none => simp
  | some row => simp [bind_ok_iff,required_ok_iff]

end Zaion.Turn
