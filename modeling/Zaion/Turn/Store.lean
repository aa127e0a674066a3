import Zaion.Turn.Outbox

/-! The operations on turns: admission, state changes, recovery of expired leases. Each is
one transaction; where it fails, the database is as before. -/
namespace Zaion.Turn

open Lib

inductive BeginTurnResult where
  | created (record : DurableTurnRecord)
  | existing (record : DurableTurnRecord)

def BeginTurnResult.record : BeginTurnResult → DurableTurnRecord
  | created record | existing record => record

/-- `validate_actor_authority`. -/
def actorMatches (ingress : AuthenticatedIngress) (actor : TurnActorIdentity) : Prop :=
  ingress.tenantId = actor.tenantId ∧ ingress.principalId = actor.principalId ∧
    ingress.workspaceId = actor.workspaceId ∧ ingress.profileId = actor.profileId

instance : Decidable (actorMatches ingress actor) := inferInstanceAs (Decidable (_ ∧ _))

/-- `validate_lease_identity`. -/
def validateLeaseIdentity (field value : String) : Except TurnStoreError Unit :=
  ensure (validIdentifier value = true) (TurnStoreError.invalidLeaseIdentity field)

def TurnActorIdentity.key (actor : TurnActorIdentity) : String × String := (actor.tenantId, actor.actorKey)

def TurnActorIdentity.row (actor : TurnActorIdentity) (now : DateTime) : ActorRow where
  tenantId := actor.tenantId
  actorKey := actor.actorKey
  principalId := actor.principalId
  workspaceId := actor.workspaceId
  profileId := actor.profileId
  channelId := actor.channelId
  threadId := actor.threadId
  revision := 0
  activeTurnId := none
  leaseOwner := none
  leaseUntilMs := none
  createdAtMs := now.millis
  updatedAtMs := now.millis

def TurnActorIdentity.identifies (actor : TurnActorIdentity) (row : ActorRow) : Prop :=
  row.principalId = actor.principalId ∧ row.workspaceId = actor.workspaceId ∧
    row.profileId = actor.profileId ∧ row.channelId = actor.channelId ∧ row.threadId = actor.threadId

instance (actor : TurnActorIdentity) (row : ActorRow) : Decidable (actor.identifies row) :=
  inferInstanceAs (Decidable (_ ∧ _))

/-- `INSERT INTO turn_actor_v2 .. ON CONFLICT DO NOTHING`. -/
def insertActor (actor : TurnActorIdentity) (now : DateTime) (db : Database) : Database :=
  if ∃ a ∈ db.actors, a.key = actor.key then db
  else { db with actors := db.actors ++ [actor.row now] }

/-- `ensure_actor_row`. -/
def ensureActorRow (actor : TurnActorIdentity) (now : DateTime) (db : Database) :
    Except TurnStoreError Database := do
  let db := insertActor actor now db
  let persisted ← requireActor db actor.tenantId actor.actorKey .actorAuthorityMismatch
  ensure (actor.identifies persisted.toActorRow) TurnStoreError.actorAuthorityMismatch
  .ok db

/-- An actor row with its active turn, lease owner and lease end replaced. -/
def ActorRow.leaseTo (row : ActorRow) (active owner : Option String) (untilMs : Option Int)
    (now : DateTime) : ActorRow :=
  { row with activeTurnId := active, leaseOwner := owner, leaseUntilMs := untilMs,
             revision := row.revision + 1, updatedAtMs := now.millis }

/-- `UPDATE turn_actor_v2` of one actor. -/
def updateActor (key : String × String) (cond : ActorRow → Bool) (f : ActorRow → ActorRow)
    (lost : TurnStoreError) (db : Database) : Except TurnStoreError Database := do
  let actors ← required (Table.update ActorRow.key key cond f db.actors) lost
  .ok { db with actors }

/-- `clear_actor`. -/
def clearActor (turn : TurnRow) (now : DateTime) (db : Database) : Except TurnStoreError Database :=
  updateActor (turn.tenantId, turn.actorKey) (fun a => a.activeTurnId = some turn.turnId)
    (·.leaseTo none none none now) .casLost db

/-- A turn's row after a state change. -/
def TurnRow.advanced (row : TurnRow) (next : TurnState) (revision : Nat) (terminalJson terminalHash : Option String)
    (now : DateTime) : TurnRow :=
  { row with state := next, revision := revision, terminalJson := terminalJson,
             terminalHash := terminalHash, updatedAtMs := now.millis }

/-- `UPDATE turn_state_v2 .. WHERE .. state = ? AND revision = ?`. -/
def updateTurn (turn : TurnRow) (next : TurnState) (revision : Nat) (terminalJson terminalHash : Option String)
    (now : DateTime) (db : Database) : Except TurnStoreError Database := do
  let turns ← required (Table.update TurnRow.key turn.key
    (fun t => t.state = turn.state && t.revision = turn.revision)
    (·.advanced next revision terminalJson terminalHash now) db.turns) TurnStoreError.casLost
  .ok { db with turns }

def recoveryReason : TurnState → String
  | .running | .toolRunning => "expired_actor_lease_with_uncertain_external_effect"
  | _ => "expired_actor_lease_before_uncertain_effect"

/-- The result recovery writes for a turn whose lease ran out in a state. -/
def recoveryExecution (state : TurnState) : TurnExecution :=
  match state with
  | .running | .toolRunning => .finished none (.quarantined
      ⟨3, recoveryReason state, "durable_turn_recovery"⟩)
  | _ => .finished none (.aborted
      ⟨recoveryReason state, "durable turn lease expired before a recoverable continuation existed"⟩
      ⟨[], none⟩)

/-- `recover_turn_in_tx`. -/
def recoverTurnInTx (host : Host) (record : DurableTurnRecord) (now : DateTime) (db : Database) :
    Except TurnStoreError (Database × DurableTurnRecord) := do
  ensure (record.updatedAt ≤ now) TurnStoreError.nonMonotonicTimestamp
  if record.state.isTerminal = true then
    let db ← clearActor record.toTurnRow now db
    .ok (db, record)
  else
    let execution := recoveryExecution record.state
    let next := execution.terminalState
    let revision ← (compareAndTransition record.state record.revision record.state record.revision
      next).mapError .transition
    let terminalJson := host.toText execution.toJson
    let terminalHash := host.sha256Text terminalJson
    let revision ← revisionToI64 revision
    let db ← updateTurn record.toTurnRow next revision (some terminalJson) (some terminalHash) now db
    let db ← clearActor record.toTurnRow now db
    let recovered ← requireTurn host db record.tenantId record.turnId
    let db ← insertOutbox host recovered (some record.state) (some terminalHash) now db
    .ok (db, recovered)

/-- `recover_actor_for_admission`. -/
def recoverActorForAdmission (host : Host) (actor : TurnActorIdentity) (now : DateTime) (db : Database) :
    Except TurnStoreError Database := do
  let record ← requireActor db actor.tenantId actor.actorKey .actorAuthorityMismatch
  match record.activeTurnId with
  | none => .ok db
  | some activeTurnId =>
    let leaseUntil ← required record.leaseUntil (.actorLeaseLost "missing")
    ensure (leaseUntil ≤ now) (TurnStoreError.actorBusy actor.actorKey activeTurnId leaseUntil)
    let active ← requireTurn host db actor.tenantId activeTurnId
    let result ← recoverTurnInTx host active now db
    .ok result.1

/-- `recover_duplicate_if_expired`. -/
def recoverDuplicateIfExpired (host : Host) (record : DurableTurnRecord) (now : DateTime) (db : Database) :
    Except TurnStoreError (Database × DurableTurnRecord) := do
  if record.state.isTerminal = true then .ok (db, record)
  else
    let actor ← requireActor db record.tenantId record.actorKey (.actorLeaseLost "missing")
    ensure (actor.activeTurnId = some record.turnId)
      (TurnStoreError.actorLeaseLost (actor.leaseOwner.getD "missing"))
    if ∃ leaseUntil ∈ actor.leaseUntil, leaseUntil ≤ now then recoverTurnInTx host record now db
    else .ok (db, record)

/-- The row of a turn as it is admitted. -/
def admittedTurn (host : Host) (ingress : AuthenticatedIngress) (admission : DurableTurnAdmission)
    (now : DateTime) : TurnRow :=
  let requestJson := host.toText admission.request
  let requestHash := host.sha256Text requestJson
  let authorityJson := host.toText (ingress.toJson host)
  { tenantId := ingress.tenantId
    turnId := deterministicTurnId host ingress.tenantId ingress.idempotencyKey requestHash
    actorKey := admission.actor.actorKey
    subjectId := ingress.subjectId
    principalId := ingress.principalId
    workspaceId := ingress.workspaceId
    profileId := ingress.profileId
    sessionId := ingress.sessionId
    sourceSurface := ingress.sourceSurface
    sourceId := ingress.sourceId
    idempotencyKey := ingress.idempotencyKey
    requestJson := requestJson
    requestHash := requestHash
    authorityJson := authorityJson
    authorityHash := host.sha256Text authorityJson
    deadlineMs := ingress.deadline.millis
    createdAtMs := now.millis
    state := if admission.approvalRequired then .waitingApproval else .accepted
    revision := 0
    terminalJson := none
    terminalHash := none
    updatedAtMs := now.millis }

/-- `INSERT INTO turn_state_v2` under its keys. -/
def insertTurn (turn : TurnRow) (db : Database) : Except TurnStoreError Database := do
  ensure (∀ t ∈ db.turns, t.key ≠ turn.key) (TurnStoreError.sqliteConstraint "turn_state_v2")
  ensure (∀ t ∈ db.turns, t.admission ≠ turn.admission) (TurnStoreError.sqliteConstraint "turn_state_v2")
  ensure (∃ a ∈ db.actors, a.key = (turn.tenantId, turn.actorKey))
    (TurnStoreError.sqliteConstraint "turn_state_v2")
  .ok { db with turns := db.turns ++ [turn] }

/-- The fresh branch of `begin_turn`, once the actor is free. -/
def admitTurn (host : Host) (turn : TurnRow) (leaseOwner : String) (now : DateTime) (db : Database) :
    Except TurnStoreError (Database × DurableTurnRecord) := do
  let db ← insertTurn turn db
  let db ← updateActor (turn.tenantId, turn.actorKey) (fun a => a.activeTurnId = none)
    (·.leaseTo (some turn.turnId) (some leaseOwner) (some turn.deadlineMs) now) .casLost db
  let record ← requireTurn host db turn.tenantId turn.turnId
  let db ← insertOutbox host record none none now db
  .ok (db, record)

/-- `begin_turn`. -/
def beginTurn (host : Host) (ingress : AuthenticatedIngress) (admission : DurableTurnAdmission)
    (now : DateTime) (db : Database) : Except TurnStoreError (Database × BeginTurnResult) := do
  ensure (actorMatches ingress admission.actor) TurnStoreError.actorAuthorityMismatch
  let turn := admittedTurn host ingress admission now
  match ← loadByIdempotency host db ingress.tenantId ingress.idempotencyKey with
  | some existing =>
    ensure (existing.actorKey = turn.actorKey ∧ existing.requestHash = turn.requestHash ∧
      existing.authorityHash = turn.authorityHash) TurnStoreError.idempotencyConflict
    let result ← recoverDuplicateIfExpired host existing now db
    .ok (result.1, .existing result.2)
  | none =>
    ensure (now < ingress.deadline) TurnStoreError.deadlineExpired
    let db ← ensureActorRow admission.actor now db
    let db ← recoverActorForAdmission host admission.actor now db
    let result ← admitTurn host turn admission.leaseOwner now db
    .ok (result.1, .created result.2)

/-- `verify_actor_lease`. -/
def verifyActorLease (record : DurableTurnRecord) (leaseOwner : String) (now : DateTime) (db : Database) :
    Except TurnStoreError Unit := do
  let actor ← requireActor db record.tenantId record.actorKey (.actorLeaseLost leaseOwner)
  ensure (actor.activeTurnId = some record.turnId ∧ actor.leaseOwner = some leaseOwner ∧
    ∃ deadline ∈ actor.leaseUntil, now < deadline) (TurnStoreError.actorLeaseLost leaseOwner)

/-- The actor's lease after a state change of its turn: gone with a terminal state, else
up to the turn's deadline. -/
def ActorRow.afterTransition (row : ActorRow) (turn : TurnRow) (leaseOwner : String) (next : TurnState)
    (now : DateTime) : ActorRow :=
  if next.isTerminal then row.leaseTo none none none now
  else row.leaseTo (some turn.turnId) (some leaseOwner) (some turn.deadlineMs) now

/-- `update_actor_after_transition`. -/
def updateActorAfterTransition (turn : TurnRow) (leaseOwner : String) (next : TurnState) (now : DateTime)
    (db : Database) : Except TurnStoreError Database :=
  updateActor (turn.tenantId, turn.actorKey)
    (fun a => a.activeTurnId = some turn.turnId && a.leaseOwner = some leaseOwner)
    (·.afterTransition turn leaseOwner next now) (.actorLeaseLost leaseOwner) db

/-- `transition_inner`. -/
def transitionInner (host : Host) (tenantId turnId leaseOwner : String) (expectedState : TurnState)
    (expectedRevision : Nat) (next : TurnState) (terminalResult : Option TurnExecution) (now : DateTime)
    (db : Database) : Except TurnStoreError (Database × DurableTurnRecord) := do
  validateLeaseIdentity "lease_owner" leaseOwner
  let current ← requireTurn host db tenantId turnId
  ensure (current.updatedAt ≤ now) TurnStoreError.nonMonotonicTimestamp
  verifyActorLease current leaseOwner now db
  let revision ← (compareAndTransition current.state current.revision expectedState expectedRevision
    next).mapError .transition
  let terminalJson := terminalResult.map (fun e => host.toText e.toJson)
  let terminalHash := terminalJson.map host.sha256Text
  let _ ← revisionToI64 expectedRevision
  let revision ← revisionToI64 revision
  let db ← updateTurn current.toTurnRow next revision terminalJson terminalHash now db
  let db ← updateActorAfterTransition current.toTurnRow leaseOwner next now db
  let record ← requireTurn host db tenantId turnId
  let db ← insertOutbox host record (some expectedState) terminalHash now db
  .ok (db, record)

/-- `compare_and_transition`. -/
def compareAndTransitionTurn (host : Host) (tenantId turnId leaseOwner : String) (expectedState : TurnState)
    (expectedRevision : Nat) (next : TurnState) (now : DateTime) (db : Database) :
    Except TurnStoreError (Database × DurableTurnRecord) := do
  ensure (next.isTerminal = false) TurnStoreError.missingTerminalResult
  transitionInner host tenantId turnId leaseOwner expectedState expectedRevision next none now db

/-- `compare_and_transition_with_result`. -/
def compareAndTransitionWithResult (host : Host) (tenantId turnId leaseOwner : String)
    (expectedState : TurnState) (expectedRevision : Nat) (next : TurnState) (terminalResult : TurnExecution)
    (now : DateTime) (db : Database) : Except TurnStoreError (Database × DurableTurnRecord) := do
  ensure (next.isTerminal = true) TurnStoreError.nonTerminalResult
  ensure (terminalResult.terminalState = next)
    (TurnStoreError.terminalOutcomeMismatch next terminalResult.terminalState)
  transitionInner host tenantId turnId leaseOwner expectedState expectedRevision next
    (some terminalResult) now db

/-- `SessionActor::approve_turn`. -/
def approveTurn (host : Host) (tenantId turnId : String) (now : DateTime) (db : Database) :
    Except TurnStoreError (Database × DurableTurnRecord) := do
  let record ← required (← loadTurn host db tenantId turnId) (TurnStoreError.unknownTurn turnId)
  ensure (record.state = .waitingApproval) (TurnStoreError.notWaitingApproval turnId)
  let actor ← requireActor db tenantId record.actorKey (.actorLeaseLost "missing")
  let leaseOwner ← required actor.leaseOwner (.actorLeaseLost "none")
  compareAndTransitionTurn host tenantId turnId leaseOwner .waitingApproval record.revision .toolRunning
    now db

/-- `bounded_limit`. -/
def boundedLimit (limit : Nat) : Nat := min (max limit 1) 1000

/-- Actors of a tenant whose lease has run out, with their turns, the longest untouched first. -/
def expiredScan (db : Database) (tenantId : String) (now : DateTime) : List (String × String) :=
  ((db.actors.filter (fun a => a.tenantId = tenantId &&
      (match a.leaseUntilMs with | none => true | some ms => decide (ms ≤ now.millis)))).mergeSort
    (fun a b => decide (a.updatedAtMs < b.updatedAtMs ∨
      (a.updatedAtMs = b.updatedAtMs ∧ a.actorKey ≤ b.actorKey)))).filterMap
    (fun a => a.activeTurnId.map (fun turnId => (a.actorKey, turnId)))

/-- What `recover_expired_actor_leases` selects. -/
def expiredActors (db : Database) (tenantId : String) (now : DateTime) (limit : Nat) :
    List (String × String) := (expiredScan db tenantId now).take (boundedLimit limit)

/-- The loop of `recover_expired_actor_leases`. -/
def recoverActors (host : Host) (tenantId : String) (now : DateTime) :
    List (String × String) → Database → Except TurnStoreError (Database × List DurableTurnRecord)
  | [], db => .ok (db, [])
  | (actorKey, turnId) :: rest, db => do
    let record ← requireTurn host db tenantId turnId
    ensure (record.actorKey = actorKey) TurnStoreError.actorAuthorityMismatch
    let recovered ← recoverTurnInTx host record now db
    let others ← recoverActors host tenantId now rest recovered.1
    .ok (others.1, recovered.2 :: others.2)

/-- `recover_expired_actor_leases`. -/
def recoverExpiredActorLeases (host : Host) (tenantId : String) (now : DateTime) (limit : Nat)
    (db : Database) : Except TurnStoreError (Database × List DurableTurnRecord) :=
  recoverActors host tenantId now (expiredActors db tenantId now limit) db

end Zaion.Turn
