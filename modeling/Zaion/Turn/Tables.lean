import Zaion.Ledger.Events
import Zaion.Lib.Table
import Zaion.Turn.State

/-! The tables of the durable turn store and the records read from them. A table is the
list of its rows in insertion order; no operation deletes a row. Texts that a `CHECK`
limits to a few values are the values; what a record adds to its row is what reading
parsed out of the row's columns. -/
namespace Zaion.Turn

/-- Columns of `turn_state_v2` that are written once, at admission. -/
structure TurnCore where
  tenantId : String
  turnId : String
  actorKey : String
  subjectId : String
  principalId : String
  workspaceId : String
  profileId : String
  sessionId : String
  sourceSurface : String
  sourceId : String
  idempotencyKey : String
  requestJson : String
  requestHash : String
  authorityJson : String
  authorityHash : String
  deadlineMs : Int
  createdAtMs : Int
  deriving DecidableEq

/-- A row of `turn_state_v2`. -/
structure TurnRow extends TurnCore where
  state : TurnState
  revision : Nat
  terminalJson : Option String
  terminalHash : Option String
  updatedAtMs : Int
  deriving DecidableEq

/-- A row of `turn_actor_v2`. -/
structure ActorRow where
  tenantId : String
  actorKey : String
  principalId : String
  workspaceId : String
  profileId : String
  channelId : String
  threadId : String
  revision : Nat
  activeTurnId : Option String
  leaseOwner : Option String
  leaseUntilMs : Option Int
  createdAtMs : Int
  updatedAtMs : Int
  deriving DecidableEq

inductive TurnOutboxStatus where
  | pending
  | leased
  | delivered
  deriving DecidableEq, Repr

/-- Columns of `turn_outbox_v2` that are written once, with the row. -/
structure OutboxEntry where
  tenantId : String
  outboxId : String
  turnId : String
  revision : Nat
  eventType : String
  effectKind : String
  idempotencyMode : String
  payloadJson : String
  payloadHash : String
  createdAtMs : Int
  deriving DecidableEq

/-- A row of `turn_outbox_v2`. -/
structure OutboxRow extends OutboxEntry where
  status : TurnOutboxStatus
  attempts : Nat
  availableAtMs : Int
  leaseOwner : Option String
  leaseToken : Option String
  leaseUntilMs : Option Int
  deliveredAtMs : Option Int
  ledgerEventId : Option String
  lastError : Option String
  updatedAtMs : Int
  deriving DecidableEq

inductive OrderOrigin where
  | legacyRowidBackfill
  | transactional
  deriving DecidableEq, Repr

def OrderOrigin.text : OrderOrigin → String
  | legacyRowidBackfill => "legacy_rowid_backfill"
  | transactional => "transactional"

/-- A row of `turn_outbox_commit_order_v2`. -/
structure OrderRow where
  commitOrdinal : Nat
  tenantId : String
  outboxId : String
  orderOrigin : OrderOrigin
  legacySourceRowid : Option Nat
  deriving DecidableEq

/-- A row of `turn_outbox_verified_commit_v2`. -/
structure EvidenceRow where
  tenantId : String
  outboxId : String
  ledgerEventId : String
  signerPublicKey : List UInt8
  databaseInstanceId : String
  deriving DecidableEq

inductive OutboxDispatchPhase where
  | claim
  | resolveSigner
  | revalidate
  | append
  | complete
  | retryPersist
  | quarantinePersist
  deriving DecidableEq, Repr

inductive OutboxDispatchFailureClass where
  | retryable
  | permanent
  | leaseLost
  | fatal
  deriving DecidableEq, Repr

inductive OutboxDispatchFailureCode where
  | signerMissing
  | signerUnavailable
  | signerInvalid
  | signerMismatch
  | storeBusy
  | storeIo
  | storeIntegrity
  | ledgerBusy
  | ledgerIo
  | ledgerIntegrity
  | leaseLost
  | leaseBudgetExhausted
  | shutdownTimeout
  | infrastructureFailure
  deriving DecidableEq, Repr

structure OutboxDispatchFailure where
  phase : OutboxDispatchPhase
  failureClass : OutboxDispatchFailureClass
  code : OutboxDispatchFailureCode
  message : String
  deriving DecidableEq

/-- Column `failure_class`. -/
inductive QuarantineClass where
  | permanent
  | retryExhausted
  deriving DecidableEq, Repr

/-- A row of `turn_outbox_quarantine_v2`. -/
structure QuarantineRow where
  tenantId : String
  outboxId : String
  commitOrdinal : Nat
  principalId : String
  failureClass : QuarantineClass
  failureCode : OutboxDispatchFailureCode
  failurePhase : OutboxDispatchPhase
  errorMessage : String
  attempts : Nat
  leaseOwner : String
  leaseToken : String
  payloadHash : String
  quarantinedAtMs : Int
  deriving DecidableEq

inductive SchemaKind where
  | table
  | index
  | trigger
  deriving DecidableEq, Repr

def SchemaKind.text : SchemaKind → String
  | table => "table"
  | index => "index"
  | trigger => "trigger"

/-- The objects `open` creates and checks. -/
inductive SchemaObject where
  | migrationTable
  | orderTable
  | orderIndex
  | revisionIndex
  | orderTrigger
  | orderUpdateGuard
  | orderDeleteGuard
  | verifiedCommitTable
  | verifiedCommitInsertGuard
  | verifiedCommitUpdateGuard
  | verifiedCommitDeleteGuard
  | verifiedDeliveryGuard
  | quarantineTable
  | quarantineInsertGuard
  | quarantineUpdateGuard
  | quarantineDeleteGuard
  deriving DecidableEq, Repr

/-- The statement an entry of `sqlite_master` was created by: the constant of one of the
objects above, or some other text. -/
inductive Definition where
  | constant (object : SchemaObject)
  | other (sql : String)
  deriving DecidableEq, Repr

/-- A row of `sqlite_master`. -/
structure SchemaEntry where
  kind : SchemaKind
  name : String
  onTable : String
  definition : Definition
  deriving DecidableEq

/-- A row of `turn_store_schema_migrations_v2`. -/
structure MigrationRow where
  migrationId : String
  migrationKind : String
  sourceRowCount : Nat
  sourceMaxRowid : Nat
  sourceDigest : String
  appliedAtMs : Int
  deriving DecidableEq

/-- One database file: the turn store's tables, and the ledger's events next to them. -/
structure Database where
  path : String
  instanceId : String
  schema : List SchemaEntry
  migrations : List MigrationRow
  actors : List ActorRow
  turns : List TurnRow
  outbox : List OutboxRow
  commitOrder : List OrderRow
  /-- `sqlite_sequence` of the commit-order table. -/
  sequence : Option Nat
  verifiedCommits : List EvidenceRow
  quarantines : List QuarantineRow
  events : List Ledger.EventRow
  deriving DecidableEq

/-- A file the ledger has opened and the turn store has not. -/
def Database.created (path instanceId : String) : Database where
  path := path
  instanceId := instanceId
  schema := []
  migrations := []
  actors := []
  turns := []
  outbox := []
  commitOrder := []
  sequence := none
  verifiedCommits := []
  quarantines := []
  events := []

def TurnRow.key (row : TurnRow) : String × String := (row.tenantId, row.turnId)
def TurnRow.admission (row : TurnRow) : String × String := (row.tenantId, row.idempotencyKey)
def ActorRow.key (row : ActorRow) : String × String := (row.tenantId, row.actorKey)
def OutboxEntry.key (row : OutboxEntry) : String × String := (row.tenantId, row.outboxId)
def OrderRow.key (row : OrderRow) : String × String := (row.tenantId, row.outboxId)
def EvidenceRow.key (row : EvidenceRow) : String × String := (row.tenantId, row.outboxId)
def QuarantineRow.key (row : QuarantineRow) : String × String := (row.tenantId, row.outboxId)

structure DurableTurnRecord extends TurnRow where
  request : Json
  authority : Json
  terminalResult : Option Json
  deadline : DateTime
  createdAt : DateTime
  updatedAt : DateTime
  deriving DecidableEq

structure TurnActorRecord extends ActorRow where
  leaseUntil : Option DateTime
  createdAt : DateTime
  updatedAt : DateTime
  deriving DecidableEq

structure TurnOutboxRecord extends OutboxRow where
  commitOrdinal : Nat
  orderOrigin : OrderOrigin
  payload : Json
  verified : Option EvidenceRow
  availableAt : DateTime
  leaseUntil : Option DateTime
  deliveredAt : Option DateTime
  createdAt : DateTime
  updatedAt : DateTime
  deriving DecidableEq

inductive TurnStoreError where
  | sqliteConstraint (table : String)
  | sqliteConversion (error : TurnStoreError)
  | json
  | corruptState (text : String)
  | corruptTimestamp (field : String) (value : Int)
  | invalidLeaseIdentity (field : String)
  | actorAuthorityMismatch
  | deadlineExpired
  | idempotencyConflict
  | unknownTurn (turnId : String)
  | notWaitingApproval (turnId : String)
  | actorBusy (actorKey activeTurnId : String) (leaseUntil : DateTime)
  | actorLeaseLost (leaseOwner : String)
  | missingTurn (tenantId turnId : String)
  | transition (error : TurnTransitionError)
  | casLost
  | missingTerminalResult
  | nonTerminalResult
  | terminalOutcomeMismatch (expected actual : TurnState)
  | hashMismatch (field : String)
  | recordBindingMismatch (field : String)
  | missingOutbox (tenantId outboxId : String)
  | outboxLeaseLost (outboxId leaseOwner : String)
  | outboxLeaseExpired (outboxId : String)
  | invalidOutboxLeaseDuration
  | outboxErrorTooLong
  | outboxRetryTimeInvalid
  | outboxAttemptsExhausted
  | outboxLeaseTimeOverflow
  | commitOrdinalExhausted
  | outboxOrderConflict (outboxId : String)
  | outboxHistoryIncomplete (turnId : String)
  | outboxHistoryRevision (expected actual : Nat)
  | outboxHistoryGenesis (revision : Nat)
  | outboxHistoryPreviousState (revision : Nat)
  | outboxHistoryIllegalTransition (revision : Nat) (source target : TurnState)
  | outboxHistoryCurrentTurn (turnId : String)
  | outboxDeliveredPrefix (revision : Nat)
  | outboxLedgerEventMismatch (revision : Nat)
  | outboxCommitMismatch (outboxId : String)
  | outboxLedgerPathMismatch
  | outboxLedgerInstanceMismatch
  | outboxPrincipalMismatch
  | outboxSignerEvidenceMissing (outboxId : String)
  | outboxCompletionTimeInvalid
  | nonMonotonicTimestamp
  | ledger (error : Ledger.LedgerError)
  | schemaIntegrity (detail : String)
  deriving DecidableEq

end Zaion.Turn
