import Zaion.Turn.Order
import Mathlib.Logic.Relation

/-! What one write transaction can do to the tables. Every operation that commits is a
chain of the steps below, each with what the operation has checked by then; invariants
are proved once for the steps. -/
namespace Zaion.Turn

open Lib Ledger

/-- `insert_outbox` on the tables: the row and its place in the commit order. -/
def Database.appendEntry (entry : OutboxEntry) (db : Database) : Database :=
  insertOrder entry.tenantId entry.outboxId .transactional none
    { db with outbox := db.outbox ++ [entry.pending] }

/-- What `insert_outbox` has checked of a new row. -/
structure Insertable (db : Database) (entry : OutboxEntry) : Prop where
  key : ∀ o ∈ db.outbox, outboxKey o ≠ entry.key
  revision : ∀ o ∈ db.outbox, ¬ (o.tenantId = entry.tenantId ∧ o.turnId = entry.turnId ∧
    o.revision = entry.revision)
  bound : entry.revision ≤ i64MaxNat
  installed : validateNoExtraOutboxTriggers db = .ok ()

/-- The outbox row of a turn's state change. -/
def TurnRow.entry (host : Host) (row : TurnRow) (previous : Option TurnState) (terminalHash : Option String)
    (now : DateTime) : OutboxEntry :=
  OutboxEntry.written host row.toTurnCore previous row.state row.revision terminalHash now.floor

/-- A turn as `begin_turn` may write it. -/
structure Admission (host : Host) (db : Database) (turn : TurnRow) (now : DateTime) : Prop where
  fresh : ∀ t ∈ db.turns, t.key ≠ turn.key
  unused : ∀ t ∈ db.turns, t.admission ≠ turn.admission
  idle : ∃ a, Table.select ActorRow.key (turn.tenantId, turn.actorKey) db.actors = some a ∧
    a.activeTurnId = none
  genesis : turn.state = .accepted ∨ turn.state = .waitingApproval
  revision : turn.revision = 0
  terminalHash : turn.terminalHash = none
  created : turn.createdAtMs = now.millis
  updated : turn.updatedAtMs = now.millis
  inTime : now.millis ≤ turn.deadlineMs
  reads : ∃ record, materializeTurn host turn = .ok record
  insertable : Insertable db (turn.entry host none none now)

def Database.admitRow (host : Host) (turn : TurnRow) (owner : String) (now : DateTime) (db : Database) :
    Database :=
  Database.appendEntry (turn.entry host none none now)
    { db with
      turns := db.turns ++ [turn]
      actors := Table.modify ActorRow.key (turn.tenantId, turn.actorKey)
        (·.leaseTo (some turn.turnId) (some owner) (some turn.deadlineMs) now) db.actors }

/-- A state change, by its caller or by recovery. -/
structure Advance (host : Host) (db : Database) (row : TurnRow) (next : TurnState)
    (terminalJson terminalHash : Option String) (now : DateTime) : Prop where
  found : Table.select TurnRow.key row.key db.turns = some row
  legal : row.state.canTransitionTo next = true
  result : terminalHash.isSome = next.isTerminal
  monotone : row.updatedAtMs ≤ now.millis
  leased : ∃ a, Table.select ActorRow.key (row.tenantId, row.actorKey) db.actors = some a ∧
    a.activeTurnId = some row.turnId ∧
    (next.isTerminal = false → ∃ ms, a.leaseUntilMs = some ms ∧ now.millis ≤ ms)
  reads : ∃ record, materializeTurn host
    (row.advanced next (row.revision + 1) terminalJson terminalHash now) = .ok record
  insertable : Insertable db ((row.advanced next (row.revision + 1) terminalJson terminalHash now).entry host
    (some row.state) terminalHash now)

def Database.advance (host : Host) (row : TurnRow) (next : TurnState)
    (terminalJson terminalHash : Option String) (owner : String) (now : DateTime) (db : Database) : Database :=
  Database.appendEntry ((row.advanced next (row.revision + 1) terminalJson terminalHash now).entry host
      (some row.state) terminalHash now)
    { db with
      turns := Table.modify TurnRow.key row.key
        (·.advanced next (row.revision + 1) terminalJson terminalHash now) db.turns
      actors := Table.modify ActorRow.key (row.tenantId, row.actorKey)
        (·.afterTransition row owner next now) db.actors }

/-- `clear_actor` on the tables. -/
def Database.clearLease (row : TurnRow) (now : DateTime) (db : Database) : Database :=
  { db with actors :=
      Table.modify ActorRow.key (row.tenantId, row.actorKey) (·.leaseTo none none none now) db.actors }

/-- `UPDATE turn_outbox_v2` of one row. -/
def Database.setOutbox (key : String × String) (f : OutboxRow → OutboxRow) (db : Database) : Database :=
  { db with outbox := Table.modify outboxKey key f db.outbox }

/-- The row reads back after an update. -/
def Readable (host : Host) (db : Database) (key : String × String) : Prop :=
  ∃ record, requireOutbox host db key.1 key.2 = .ok record

/-- What `quarantine_outbox` records of the row it sets aside. -/
structure Quarantines (db : Database) (i : Nat) (row : OutboxRow) (q : QuarantineRow) : Prop where
  key : q.key = row.key
  fresh : ∀ other ∈ db.quarantines, other.key ≠ q.key
  ordinal : q.commitOrdinal = i + 1
  payloadHash : q.payloadHash = row.payloadHash
  attempts : q.attempts = row.attempts
  principal : ∃ t ∈ db.turns, t.key = (row.tenantId, row.turnId) ∧ t.principalId = q.principalId

/-- What `complete_outbox` has verified of the event a row is delivered as. -/
structure Verified (host : Host) (db : Database) (row : OutboxRow) (v : EvidenceRow) : Prop where
  key : v.key = row.key
  event : ∃ t ∈ db.turns, t.key = (row.tenantId, row.turnId) ∧
    v.ledgerEventId = deterministicIdempotentEventId host t.principalId row.outboxId
  inLedger : ∃ e ∈ db.events, e.eventId = v.ledgerEventId ∧ e.eventType = row.eventType
  instanceId : v.databaseInstanceId = db.instanceId

/-- The objects `open` creates, in its order. -/
def installedObjects : List SchemaObject :=
  [.migrationTable, .orderTable, .orderIndex, .revisionIndex, .orderTrigger, .orderUpdateGuard,
    .orderDeleteGuard] ++ .quarantineTable :: quarantineTriggers ++ .verifiedCommitTable :: verifiedCommitTriggers

/-- The marker of a migration that found no row. -/
def emptyMarker (host : Host) (migration : Migration) (appliedAtMs : Int) : MigrationRow :=
  ⟨migration.id, migration.kind, 0, 0, "sha256:" ++ host.sha256Hex [], appliedAtMs⟩

/-- Schema and markers of a file that was empty when `open` first ran on it. -/
structure Installed (host : Host) (schema : List SchemaEntry) (migrations : List MigrationRow) : Prop where
  objects : schema = installedObjects.map SchemaObject.entry
  markers : ∃ orderAt guardAt quarantineAt verifiedAt, migrations =
    [emptyMarker host .order orderAt, emptyMarker host .orderGuard guardAt,
      emptyMarker host .quarantine quarantineAt, emptyMarker host .verifiedCommit verifiedAt]

/-- Which genesis states and which clock values a step is allowed. -/
structure Limits where
  genesis : TurnState → Prop
  clock : DateTime → Prop

/-- What a call on turns can do. -/
inductive TurnStep (host : Host) (limits : Limits) : Database → Database → Prop
  | addActor (actor : TurnActorIdentity) (now : DateTime)
      (fresh : ∀ a ∈ db.actors, a.key ≠ actor.key) :
      TurnStep host limits db { db with actors := db.actors ++ [actor.row now] }
  | admitRow (turn : TurnRow) (owner : String) (now : DateTime) (admission : Admission host db turn now)
      (genesis : limits.genesis turn.state) (clock : limits.clock now) :
      TurnStep host limits db (db.admitRow host turn owner now)
  | advance (row : TurnRow) (next : TurnState) (terminalJson terminalHash : Option String) (owner : String)
      (now : DateTime) (advance : Advance host db row next terminalJson terminalHash now)
      (clock : limits.clock now) :
      TurnStep host limits db (db.advance host row next terminalJson terminalHash owner now)
  | clear (row : TurnRow) (now : DateTime) (found : Table.select TurnRow.key row.key db.turns = some row)
      (terminal : row.state.isTerminal = true)
      (active : ∃ a, Table.select ActorRow.key (row.tenantId, row.actorKey) db.actors = some a ∧
        a.activeTurnId = some row.turnId) :
      TurnStep host limits db (db.clearLease row now)

/-- What any call can do. -/
inductive Step (host : Host) (limits : Limits) : Database → Database → Prop
  | turn (step : TurnStep host limits db db') : Step host limits db db'
  | claim (i : Nat) (row : OutboxRow) (owner token : String) (untilMs : Int) (now : DateTime)
      (head : Head db i row) (free : outboxIsQuarantined db row.tenantId row.outboxId = false)
      (available : row.availableAtMs ≤ now.millis) (claimable : row.claimable now.millis = true)
      (readable : Readable host (db.setOutbox row.key (·.claimed owner token untilMs now.millis)) row.key) :
      Step host limits db (db.setOutbox row.key (·.claimed owner token untilMs now.millis))
  | renew (i : Nat) (row : OutboxRow) (owner token : String) (untilMs : Int) (now : DateTime)
      (head : Head db i row) (free : outboxIsQuarantined db row.tenantId row.outboxId = false)
      (held : row.heldBy owner token now.millis = true)
      (readable : Readable host (db.setOutbox row.key (·.renewed untilMs now.millis)) row.key) :
      Step host limits db (db.setOutbox row.key (·.renewed untilMs now.millis))
  | release (i : Nat) (row : OutboxRow) (owner token : String) (now availableAt : DateTime) (error : String)
      (head : Head db i row) (held : row.heldBy owner token now.millis = true)
      (readable : Readable host
        (db.setOutbox row.key (·.released availableAt.millis now.millis error)) row.key) :
      Step host limits db (db.setOutbox row.key (·.released availableAt.millis now.millis error))
  | quarantine (i : Nat) (row : OutboxRow) (q : QuarantineRow) (owner token : String) (now : DateTime)
      (error : String) (head : Head db i row) (held : row.heldBy owner token now.millis = true)
      (quarantines : Quarantines db i row q)
      (readable : Readable host ({ db with quarantines := db.quarantines ++ [q] }.setOutbox row.key
        (·.released now.millis now.millis error)) row.key) :
      Step host limits db ({ db with quarantines := db.quarantines ++ [q] }.setOutbox row.key
        (·.released now.millis now.millis error))
  | deliver (i : Nat) (row : OutboxRow) (v : EvidenceRow) (owner token : String) (now : DateTime)
      (head : Head db i row) (held : row.heldBy owner token now.millis = true)
      (fresh : ∀ other ∈ db.verifiedCommits, other.key ≠ v.key) (verified : Verified host db row v)
      (readable : Readable host ({ db with verifiedCommits := db.verifiedCommits ++ [v] }.setOutbox row.key
        (·.deliver v.ledgerEventId now.millis)) row.key) :
      Step host limits db ({ db with verifiedCommits := db.verifiedCommits ++ [v] }.setOutbox row.key
        (·.deliver v.ledgerEventId now.millis))
  | repair (row : OutboxRow) (v : EvidenceRow) (member : row ∈ db.outbox) (delivered : row.status = .delivered)
      (key : v.key = row.key) (fresh : ∀ other ∈ db.verifiedCommits, other.key ≠ v.key) :
      Step host limits db { db with verifiedCommits := db.verifiedCommits ++ [v] }
  | ledger (events : List EventRow) (appends : Appends host db.events events) :
      Step host limits db { db with events }
  | migrate (schema : List SchemaEntry) (migrations : List MigrationRow) (new : db.outbox = [])
      (installed : Installed host schema migrations) :
      Step host limits db { db with schema, migrations }

/-- Steps one after the other. -/
abbrev TurnSteps (host : Host) (limits : Limits) : Database → Database → Prop :=
  Relation.ReflTransGen (TurnStep host limits)

abbrev Steps (host : Host) (limits : Limits) : Database → Database → Prop :=
  Relation.ReflTransGen (Step host limits)

theorem TurnSteps.steps {host : Host} {limits : Limits} {db db' : Database}
    (steps : TurnSteps host limits db db') : Steps host limits db db' :=
  Relation.ReflTransGen.mono (fun _ _ => .turn) _ _ steps

/-- Steps that leave the ledger alone. -/
abbrev QuietSteps (host : Host) (limits : Limits) : Database → Database → Prop :=
  Relation.ReflTransGen (fun a b => Step host limits a b ∧ b.events = a.events)

theorem TurnSteps.quiet {host : Host} {limits : Limits} {db db' : Database}
    (steps : TurnSteps host limits db db') : QuietSteps host limits db db' := by
  refine Relation.ReflTransGen.mono ?_ _ _ steps
  intro a b step
  exact ⟨.turn step, by cases step <;> rfl⟩

/-- A property every step keeps, a chain of steps keeps. -/
theorem steps_keep {α : Type} {step : α → α → Prop} {P : α → Prop} {a b : α}
    (keeps : ∀ {a b}, P a → step a b → P b) (steps : Relation.ReflTransGen step a b) (start : P a) : P b := by
  induction steps with
  | refl => exact start
  | tail _ last ih => exact keeps ih last

end Zaion.Turn
