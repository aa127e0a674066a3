import Zaion.Turn.History
import Zaion.Turn.Store

/-! The dispatcher's side of the store: leasing the head of a tenant's outbox, releasing or
renewing the lease, checking a row before its event is signed, completing it against the
ledger, and setting a row aside for good. -/
namespace Zaion.Turn

open Lib Ledger

/-- `Duration::seconds(1)` and `Duration::seconds(MAX_OUTBOX_LEASE_SECONDS)`, in nanoseconds. -/
def validLeaseDuration (duration : Int) : Prop := 1000000000 ≤ duration ∧ duration ≤ 300000000000

instance : Decidable (validLeaseDuration duration) := inferInstanceAs (Decidable (_ ∧ _))

/-- `outbox_is_quarantined`. -/
def outboxIsQuarantined (db : Database) (tenantId outboxId : String) : Bool :=
  (Table.select QuarantineRow.key (tenantId, outboxId) db.quarantines).isSome

/-- `UPDATE turn_outbox_v2` of one row. The delivery guard raises unless the row is
undelivered and, where the update delivers it, its commit evidence is there. -/
def updateOutbox (key : String × String) (cond : OutboxRow → Bool) (f : OutboxRow → OutboxRow)
    (lost : TurnStoreError) (db : Database) : Except TurnStoreError Database := do
  let outbox ← required (Table.update outboxKey key cond f db.outbox) lost
  ensure (∀ o ∈ db.outbox, outboxKey o = key → o.status ≠ .delivered ∧ ((f o).status = .delivered →
      ∃ v ∈ db.verifiedCommits, v.key = key ∧ (f o).ledgerEventId = some v.ledgerEventId))
    (TurnStoreError.sqliteConstraint
      "delivered outbox rows are immutable and require verified commit evidence")
  .ok { db with outbox }

def OutboxRow.claimed (row : OutboxRow) (owner token : String) (untilMs nowMs : Int) : OutboxRow :=
  { row with status := .leased, leaseOwner := some owner, leaseToken := some token,
             leaseUntilMs := some untilMs, attempts := row.attempts + 1, lastError := none,
             updatedAtMs := nowMs }

def OutboxRow.renewed (row : OutboxRow) (untilMs nowMs : Int) : OutboxRow :=
  { row with leaseUntilMs := some untilMs, updatedAtMs := nowMs }

def OutboxRow.released (row : OutboxRow) (availableMs nowMs : Int) (error : String) : OutboxRow :=
  { row with status := .pending, leaseOwner := none, leaseToken := none, leaseUntilMs := none,
             availableAtMs := availableMs, lastError := some error, updatedAtMs := nowMs }

def OutboxRow.deliver (row : OutboxRow) (eventId : String) (nowMs : Int) : OutboxRow :=
  { row with status := .delivered, leaseOwner := none, leaseToken := none, leaseUntilMs := none,
             deliveredAtMs := some nowMs, ledgerEventId := some eventId, updatedAtMs := nowMs }

/-- `status = 'leased' AND lease_owner = ? AND lease_token = ? AND lease_until_ms > ?`. -/
def OutboxRow.heldBy (row : OutboxRow) (owner token : String) (nowMs : Int) : Bool :=
  row.status = .leased && row.leaseOwner = some owner && row.leaseToken = some token &&
    (match row.leaseUntilMs with | some ms => decide (nowMs < ms) | none => false)

/-- `status = 'pending' OR (status = 'leased' AND lease_until_ms <= ?)`. -/
def OutboxRow.claimable (row : OutboxRow) (nowMs : Int) : Bool :=
  row.status = .pending || (row.status = .leased &&
    (match row.leaseUntilMs with | some ms => decide (ms ≤ nowMs) | none => false))

/-- Whether `claim_next_outbox` finds the head ready. -/
def TurnOutboxRecord.ready (record : TurnOutboxRecord) (now : DateTime) : Bool :=
  decide (record.availableAt ≤ now) && match record.status with
    | .pending => true
    | .leased => (match record.leaseUntil with | some leaseUntil => decide (leaseUntil ≤ now) | none => false)
    | .delivered => false

/-- The claim proper, on the head `outboxId` of the tenant. -/
def claimHead (host : Host) (tenantId outboxId leaseOwner : String) (now : DateTime) (leaseDuration : Int)
    (leaseToken : String) (db : Database) : Except TurnStoreError (Database × Option TurnOutboxRecord) := do
  let current ← requireOutbox host db tenantId outboxId
  if outboxIsQuarantined db tenantId outboxId = true then .ok (db, none)
  else if current.ready now = false then .ok (db, none)
  else
    ensure (current.attempts < i64MaxNat) TurnStoreError.outboxAttemptsExhausted
    let leaseUntil ← required (now.add? leaseDuration) TurnStoreError.outboxLeaseTimeOverflow
    let db ← updateOutbox (tenantId, outboxId) (·.claimable now.millis)
      (·.claimed leaseOwner leaseToken leaseUntil.millis now.millis) .casLost db
    let record ← requireOutbox host db tenantId outboxId
    let head ← tenantOutboxHead db tenantId
    ensure (record.status = .leased ∧ record.leaseOwner = some leaseOwner ∧
        record.leaseToken = some leaseToken ∧
        record.leaseUntil.map DateTime.millis = some leaseUntil.millis ∧
        record.attempts = current.attempts + 1 ∧ record.updatedAt.millis = now.millis ∧
        head = some outboxId)
      (failIntegrity "outbox claim was modified by unexpected database behavior")
    .ok (db, some record)

/-- `claim_next_outbox`; the token is the one the store draws for this claim. -/
def claimNextOutbox (host : Host) (tenantId leaseOwner : String) (now : DateTime) (leaseDuration : Int)
    (leaseToken : String) (db : Database) : Except TurnStoreError (Database × Option TurnOutboxRecord) := do
  validateLeaseIdentity "lease_owner" leaseOwner
  ensure (validLeaseDuration leaseDuration) TurnStoreError.invalidOutboxLeaseDuration
  validateNoExtraOutboxTriggers db
  match ← tenantOutboxHead db tenantId with
  | none => .ok (db, none)
  | some outboxId => claimHead host tenantId outboxId leaseOwner now leaseDuration leaseToken db

/-- `validate_active_lease`, also the lease checks of release, renewal and quarantine. -/
def validateActiveLease (target : TurnOutboxRecord) (leaseOwner leaseToken : String) (now : DateTime) :
    Except TurnStoreError Unit := do
  ensure (target.updatedAt ≤ now) TurnStoreError.nonMonotonicTimestamp
  ensure (target.status = .leased ∧ target.leaseOwner = some leaseOwner ∧ target.leaseToken = some leaseToken)
    (TurnStoreError.outboxLeaseLost target.outboxId leaseOwner)
  ensure (∃ leaseUntil ∈ target.leaseUntil, now < leaseUntil)
    (TurnStoreError.outboxLeaseExpired target.outboxId)

/-- The row must be the head of its tenant's queue. -/
def requireHead (db : Database) (tenantId outboxId : String) : Except TurnStoreError Unit := do
  let head ← tenantOutboxHead db tenantId
  ensure (head = some outboxId) (TurnStoreError.outboxOrderConflict outboxId)

/-- `release_outbox`. -/
def releaseOutbox (host : Host) (tenantId outboxId leaseOwner leaseToken : String)
    (now availableAt : DateTime) (error : String) (db : Database) : Except TurnStoreError Database := do
  validateLeaseIdentity "lease_owner" leaseOwner
  validateLeaseIdentity "lease_token" leaseToken
  ensure ((Host.utf8 error).length ≤ 4096) TurnStoreError.outboxErrorTooLong
  ensure (now ≤ availableAt) TurnStoreError.outboxRetryTimeInvalid
  validateNoExtraOutboxTriggers db
  requireHead db tenantId outboxId
  let current ← requireOutbox host db tenantId outboxId
  validateActiveLease current leaseOwner leaseToken now
  let db ← updateOutbox (tenantId, outboxId) (·.heldBy leaseOwner leaseToken now.millis)
    (·.released availableAt.millis now.millis error) (.outboxLeaseLost outboxId leaseOwner) db
  let released ← requireOutbox host db tenantId outboxId
  let head ← tenantOutboxHead db tenantId
  ensure (released.status = .pending ∧ released.availableAt.millis = availableAt.millis ∧
      released.updatedAt.millis = now.millis ∧ released.lastError = some error ∧ head = some outboxId)
    (failIntegrity "outbox release was modified by unexpected database behavior")
  .ok db

/-- `renew_outbox_lease`. -/
def renewOutboxLease (host : Host) (tenantId outboxId leaseOwner leaseToken : String) (now : DateTime)
    (leaseDuration : Int) (db : Database) : Except TurnStoreError (Database × TurnOutboxRecord) := do
  validateLeaseIdentity "lease_owner" leaseOwner
  validateLeaseIdentity "lease_token" leaseToken
  ensure (validLeaseDuration leaseDuration) TurnStoreError.invalidOutboxLeaseDuration
  let leaseUntil ← required (now.add? leaseDuration) TurnStoreError.outboxLeaseTimeOverflow
  validateNoExtraOutboxTriggers db
  requireHead db tenantId outboxId
  ensure (outboxIsQuarantined db tenantId outboxId = false)
    (TurnStoreError.outboxLeaseLost outboxId leaseOwner)
  let current ← requireOutbox host db tenantId outboxId
  validateActiveLease current leaseOwner leaseToken now
  let db ← updateOutbox (tenantId, outboxId) (·.heldBy leaseOwner leaseToken now.millis)
    (·.renewed leaseUntil.millis now.millis) (.outboxLeaseLost outboxId leaseOwner) db
  let renewed ← requireOutbox host db tenantId outboxId
  ensure (renewed.leaseUntil.map DateTime.millis = some leaseUntil.millis ∧
      renewed.updatedAt.millis = now.millis ∧ renewed.attempts = current.attempts)
    (failIntegrity "outbox lease renewal was modified by unexpected database behavior")
  .ok (db, renewed)

/-- A signed event of the tenant that stands before the target in commit order. -/
structure VerifiedPrefixEntry where
  revision : Nat
  binding : IdempotentEventBinding
  ledgerEventId : String
  publicKey : List UInt8
  deriving DecidableEq

structure DispatchSnapshot where
  target : ValidatedHistoryEntry
  tenantPrefix : List VerifiedPrefixEntry
  databasePath : String
  databaseInstanceId : String

/-- The delivered rows of one turn before the target. -/
def turnPrefix (host : Host) (turn : DurableTurnRecord) (targetOrdinal : Nat) (databaseInstanceId : String)
    (history : List ValidatedHistoryEntry) : Except TurnStoreError (List VerifiedPrefixEntry) :=
  mapAll (fun entry => do
      let ledgerEventId ← required entry.outbox.ledgerEventId
        (TurnStoreError.outboxDeliveredPrefix entry.outbox.revision)
      let evidence ← required entry.outbox.verified
        (TurnStoreError.outboxSignerEvidenceMissing entry.outbox.outboxId)
      ensure (evidence.ledgerEventId = ledgerEventId)
        (TurnStoreError.outboxLedgerEventMismatch entry.outbox.revision)
      ensure (evidence.databaseInstanceId = databaseInstanceId) TurnStoreError.outboxLedgerInstanceMismatch
      ensure (host.principalOf evidence.signerPublicKey = turn.principalId)
        TurnStoreError.outboxPrincipalMismatch
      Except.ok ⟨entry.outbox.revision, entry.binding, ledgerEventId, evidence.signerPublicKey⟩)
    (history.filter (fun entry => decide (entry.outbox.commitOrdinal < targetOrdinal) &&
      decide (entry.outbox.status = .delivered)))

/-- `load_tenant_verified_prefix`. -/
def loadTenantVerifiedPrefix (host : Host) (db : Database) (tenantId : String) (targetOrdinal : Nat)
    (targetTurnId : String) (targetHistory : List ValidatedHistoryEntry) :
    Except TurnStoreError (List VerifiedPrefixEntry) := do
  let turnIds := ((((committed db).filter (fun row => row.2.tenantId = tenantId &&
      decide (row.1.commitOrdinal < targetOrdinal) && decide (row.2.status = .delivered))).map
    (fun row => row.2.turnId)).dedup).mergeSort (fun a b => decide (a ≤ b))
  let parts ← mapAll (fun turnId => do
    let turn ← requireTurn host db tenantId turnId
    let history ← if turnId = targetTurnId then Except.ok targetHistory else validateTurnHistory host db turn
    turnPrefix host turn targetOrdinal db.instanceId history) turnIds
  .ok (parts.flatten.mergeSort (fun a b =>
    decide (a.binding.expectedEventId host ≤ b.binding.expectedEventId host)))

/-- Undelivered rows must be at the head and under the caller's lease. -/
def validateTarget (db : Database) (target : TurnOutboxRecord) (leaseOwner leaseToken : String)
    (now : DateTime) (allowDelivered : Bool) : Except TurnStoreError Unit := do
  let head ← tenantOutboxHead db target.tenantId
  if target.status ≠ .delivered then
    ensure (head = some target.outboxId) (TurnStoreError.outboxOrderConflict target.outboxId)
    validateActiveLease target leaseOwner leaseToken now
  else ensure (allowDelivered = true) (TurnStoreError.outboxLeaseLost target.outboxId leaseOwner)

/-- `load_dispatch_snapshot`. -/
def loadDispatchSnapshot (host : Host) (db : Database) (tenantId outboxId leaseOwner leaseToken : String)
    (now : DateTime) (allowDelivered : Bool) : Except TurnStoreError DispatchSnapshot := do
  let loaded ← requireOutbox host db tenantId outboxId
  let turn ← requireTurn host db tenantId loaded.turnId
  let history ← validateTurnHistory host db turn
  let target ← required (history.find? (fun entry => entry.outbox.outboxId = outboxId))
    (TurnStoreError.outboxHistoryIncomplete turn.turnId)
  validateTarget db target.outbox leaseOwner leaseToken now allowDelivered
  let tenantPrefix ← loadTenantVerifiedPrefix host db tenantId target.outbox.commitOrdinal turn.turnId history
  .ok ⟨target, tenantPrefix, db.path, db.instanceId⟩

/-- `dispatch_snapshot`. -/
def dispatchSnapshot (host : Host) (db : Database) (tenantId outboxId leaseOwner leaseToken : String)
    (now : DateTime) (allowDelivered : Bool) : Except TurnStoreError DispatchSnapshot := do
  validateNoExtraOutboxTriggers db
  loadDispatchSnapshot host db tenantId outboxId leaseOwner leaseToken now allowDelivered

/-- `verify_ledger_scope`. -/
def verifyLedgerScope (host : Host) (snapshot : DispatchSnapshot) (ledgerPath ledgerInstanceId : String)
    (publicKey : List UInt8) : Except TurnStoreError Unit := do
  ensure (ledgerPath = snapshot.databasePath) TurnStoreError.outboxLedgerPathMismatch
  ensure (ledgerInstanceId = snapshot.databaseInstanceId) TurnStoreError.outboxLedgerInstanceMismatch
  ensure (host.principalOf publicKey = snapshot.target.binding.principalId)
    TurnStoreError.outboxPrincipalMismatch

def Database.ledger (db : Database) : LiveLedger := ⟨db.path, db.instanceId, db.events⟩

/-- `verify_tenant_prefix` and `verify_tenant_prefix_in_connection`. -/
def verifyTenantPrefix (host : Host) (snapshot : DispatchSnapshot) (ledger : LiveLedger) :
    Except TurnStoreError Unit :=
  checkAll (fun entry => do
    let verified ← (verifyExistingIdempotentEvent host ledger entry.publicKey entry.binding).mapError .ledger
    ensure (verified.eventId = entry.ledgerEventId ∧ verified.canonicalLedgerPath = snapshot.databasePath ∧
        verified.databaseInstanceId = snapshot.databaseInstanceId)
      (TurnStoreError.outboxLedgerEventMismatch entry.revision)) snapshot.tenantPrefix

structure SigningValidatedOutbox where
  outbox : TurnOutboxRecord
  binding : IdempotentEventBinding

/-- `revalidate_outbox_for_signing`. A ledger with the store's path and instance id is the
ledger in the store's own file. -/
def revalidateOutboxForSigning (host : Host) (tenantId outboxId leaseOwner leaseToken : String)
    (now : DateTime) (ledgerPath ledgerInstanceId : String) (publicKey : List UInt8) (db : Database) :
    Except TurnStoreError SigningValidatedOutbox := do
  validateLeaseIdentity "lease_owner" leaseOwner
  validateLeaseIdentity "lease_token" leaseToken
  let snapshot ← dispatchSnapshot host db tenantId outboxId leaseOwner leaseToken now false
  verifyLedgerScope host snapshot ledgerPath ledgerInstanceId publicKey
  verifyTenantPrefix host snapshot db.ledger
  .ok ⟨snapshot.target.outbox, snapshot.target.binding⟩

inductive OutboxCompletion where
  | delivered
  | alreadyDelivered
  deriving DecidableEq, Repr

/-- `INSERT INTO turn_outbox_verified_commit_v2` under its keys, checks and insert guard. -/
def insertEvidence (evidence : EvidenceRow) (db : Database) : Except TurnStoreError Database := do
  ensure (∀ v ∈ db.verifiedCommits, v.key ≠ evidence.key)
    (TurnStoreError.sqliteConstraint "turn_outbox_verified_commit_v2")
  ensure (evidence.ledgerEventId ≠ "" ∧ evidence.signerPublicKey.length = 32 ∧
      evidence.databaseInstanceId ≠ "") (TurnStoreError.sqliteConstraint "turn_outbox_verified_commit_v2")
  ensure (∃ o ∈ db.outbox, outboxKey o = evidence.key ∧ (o.status = .leased ∨
      (o.status = .delivered ∧ o.ledgerEventId = some evidence.ledgerEventId)))
    (TurnStoreError.sqliteConstraint
      "verified outbox commit requires a leased or matching delivered row")
  .ok { db with verifiedCommits := db.verifiedCommits ++ [evidence] }

/-- `verify_outbox_commit_evidence`. -/
def verifyOutboxCommitEvidence (outbox : TurnOutboxRecord) (commit : VerifiedEventCommit) :
    Except TurnStoreError Unit :=
  ensure (∃ v ∈ outbox.verified, v.ledgerEventId = commit.eventId ∧
      v.signerPublicKey = commit.publicKeyBytes ∧ v.databaseInstanceId = commit.databaseInstanceId)
    (TurnStoreError.outboxCommitMismatch outbox.outboxId)

/-- `ensure_verified_commit_evidence`. -/
def ensureVerifiedCommitEvidence (outbox : TurnOutboxRecord) (commit : VerifiedEventCommit)
    (db : Database) : Except TurnStoreError Database :=
  match outbox.verified with
  | none => insertEvidence ⟨outbox.tenantId, outbox.outboxId, commit.eventId, commit.publicKeyBytes,
      commit.databaseInstanceId⟩ db
  | some _ => do
    verifyOutboxCommitEvidence outbox commit
    .ok db

/-- `bindings_match` and `prefixes_match` compare every field there is. -/
def DispatchSnapshot.agrees (a b : DispatchSnapshot) : Prop :=
  a.databasePath = b.databasePath ∧ a.databaseInstanceId = b.databaseInstanceId ∧
    a.target.binding = b.target.binding ∧ a.tenantPrefix = b.tenantPrefix

instance : Decidable (DispatchSnapshot.agrees a b) := inferInstanceAs (Decidable (_ ∧ _))

/-- The writes of `complete_outbox`, after every check of the commit. -/
def deliverOutbox (host : Host) (target : TurnOutboxRecord) (leaseOwner leaseToken : String)
    (commit : VerifiedEventCommit) (now : DateTime) (db : Database) :
    Except TurnStoreError (Database × OutboxCompletion) := do
  let tenantId := target.tenantId
  let outboxId := target.outboxId
  let db ← ensureVerifiedCommitEvidence target commit db
  if target.status = .delivered then
    ensure (target.ledgerEventId = some commit.eventId) (TurnStoreError.outboxCommitMismatch outboxId)
    let repaired ← requireOutbox host db tenantId outboxId
    verifyOutboxCommitEvidence repaired commit
    .ok (db, .alreadyDelivered)
  else
    ensure (target.updatedAt ≤ now) TurnStoreError.outboxCompletionTimeInvalid
    let db ← updateOutbox (tenantId, outboxId) (·.heldBy leaseOwner leaseToken now.millis)
      (·.deliver commit.eventId now.millis) (.outboxLeaseLost outboxId leaseOwner) db
    let delivered ← requireOutbox host db tenantId outboxId
    ensure (delivered.status = .delivered ∧ delivered.ledgerEventId = some commit.eventId ∧
        delivered.deliveredAt.map DateTime.millis = some now.millis ∧
        delivered.updatedAt.millis = now.millis ∧ delivered.lastError = none)
      (failIntegrity "verified outbox completion was modified by unexpected database behavior")
    verifyOutboxCommitEvidence delivered commit
    let _ ← tenantOutboxHead db tenantId
    .ok (db, .delivered)

/-- `complete_outbox`. -/
def completeOutbox (host : Host) (tenantId outboxId leaseOwner leaseToken : String)
    (commit : VerifiedEventCommit) (now : DateTime) (ledgerPath ledgerInstanceId : String) (db : Database) :
    Except TurnStoreError (Database × OutboxCompletion) := do
  validateLeaseIdentity "lease_owner" leaseOwner
  validateLeaseIdentity "lease_token" leaseToken
  let snapshot ← dispatchSnapshot host db tenantId outboxId leaseOwner leaseToken now true
  verifyLedgerScope host snapshot ledgerPath ledgerInstanceId commit.publicKeyBytes
  verifyTenantPrefix host snapshot db.ledger
  let matched ← (commit.matchesBinding host db.ledger snapshot.target.binding).mapError .ledger
  ensure (matched = true) (TurnStoreError.outboxCommitMismatch outboxId)
  validateNoExtraOutboxTriggers db
  let current ← loadDispatchSnapshot host db tenantId outboxId leaseOwner leaseToken now true
  verifyTenantPrefix host current db.ledger
  let live ← (commit.matchesBindingInConnection host db.ledger current.target.binding).mapError .ledger
  ensure (current.databasePath = commit.canonicalLedgerPath ∧
      current.databaseInstanceId = commit.databaseInstanceId ∧ current.agrees snapshot ∧ live = true)
    (TurnStoreError.outboxCommitMismatch outboxId)
  deliverOutbox host current.target.outbox leaseOwner leaseToken commit now db

/-- SQLite's `length` of a text: its characters up to the first NUL. -/
def sqlLength (text : String) : Nat := (text.toList.takeWhile (· ≠ Char.ofNat 0)).length

/-- `claimed_principal_id`. -/
def claimedPrincipalId (claim : TurnOutboxRecord) : Except TurnStoreError String :=
  required ((claim.payload.textAt ["principal_id"]).filter (· ≠ ""))
    (.recordBindingMismatch "outbox.principal_id")

/-- `INSERT INTO turn_outbox_quarantine_v2` under its keys, checks and insert guard. -/
def insertQuarantine (row : QuarantineRow) (db : Database) : Except TurnStoreError Database := do
  ensure (0 < row.commitOrdinal ∧ 0 < sqlLength row.principalId ∧ 0 < sqlLength row.errorMessage ∧
      (Host.utf8 row.errorMessage).length ≤ 4096 ∧ 0 < row.attempts)
    (TurnStoreError.sqliteConstraint "turn_outbox_quarantine_v2")
  ensure (∀ q ∈ db.quarantines, q.key ≠ row.key ∧ q.commitOrdinal ≠ row.commitOrdinal)
    (TurnStoreError.sqliteConstraint "turn_outbox_quarantine_v2")
  ensure (∃ joined ∈ committed db, outboxKey joined.2 = row.key ∧ joined.2.status = .leased ∧
      joined.2.leaseOwner = some row.leaseOwner ∧ joined.2.leaseToken = some row.leaseToken ∧
      joined.2.attempts = row.attempts ∧ joined.2.payloadHash = row.payloadHash ∧
      joined.1.commitOrdinal = row.commitOrdinal ∧
      (∃ t ∈ db.turns, t.key = (joined.2.tenantId, joined.2.turnId) ∧ t.principalId = row.principalId) ∧
      (∃ ms ∈ joined.2.leaseUntilMs, row.quarantinedAtMs < ms) ∧
      (deliveryBounds db row.tenantId).1 = some joined.1.commitOrdinal)
    (TurnStoreError.sqliteConstraint "outbox quarantine requires the matching fenced lease")
  .ok { db with quarantines := db.quarantines ++ [row] }

/-- `quarantine_outbox`. What it returns is the row it wrote. -/
def quarantineOutbox (host : Host) (claim : TurnOutboxRecord) (failure : OutboxDispatchFailure)
    (exhausted : Bool) (now : DateTime) (db : Database) :
    Except TurnStoreError (Database × QuarantineRow) := do
  let leaseOwner ← required claim.leaseOwner (.outboxLeaseLost claim.outboxId "missing")
  let leaseToken ← required claim.leaseToken (.outboxLeaseLost claim.outboxId leaseOwner)
  let principalId ← claimedPrincipalId claim
  validateNoExtraOutboxTriggers db
  requireHead db claim.tenantId claim.outboxId
  let current ← requireOutbox host db claim.tenantId claim.outboxId
  validateActiveLease current leaseOwner leaseToken now
  let row : QuarantineRow := {
    tenantId := current.tenantId
    outboxId := current.outboxId
    commitOrdinal := current.commitOrdinal
    principalId := principalId
    failureClass := if exhausted then .retryExhausted else .permanent
    failureCode := failure.code
    failurePhase := failure.phase
    errorMessage := failure.message
    attempts := current.attempts
    leaseOwner := leaseOwner
    leaseToken := leaseToken
    payloadHash := current.payloadHash
    quarantinedAtMs := now.millis }
  let db ← insertQuarantine row db
  let db ← updateOutbox (claim.tenantId, claim.outboxId) (·.heldBy leaseOwner leaseToken now.millis)
    (·.released now.millis now.millis failure.message) (.outboxLeaseLost claim.outboxId leaseOwner) db
  let quarantined ← required (Table.select QuarantineRow.key (claim.tenantId, claim.outboxId) db.quarantines)
    (failIntegrity "outbox quarantine evidence disappeared before commit")
  let released ← requireOutbox host db claim.tenantId claim.outboxId
  ensure (released.status = .pending ∧ released.leaseOwner = none ∧ released.leaseToken = none ∧
      released.leaseUntil = none ∧ released.lastError = some failure.message ∧
      outboxIsQuarantined db claim.tenantId claim.outboxId = true)
    (failIntegrity "outbox quarantine did not atomically fence future claims")
  .ok (db, quarantined)

end Zaion.Turn
