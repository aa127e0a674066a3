import Zaion.Promotion.Record

/-! `PromotionChain` on the records of its file. Every operation reads the whole file, checks
what it needs and appends; a failing operation may already have appended. -/
namespace Zaion.Promotion

open Lib

abbrev Records := List SignedPromotionRecord

/-- The texts of `Utc::now().to_rfc3339()` one operation reads, in order. -/
abbrev Clock := Nat → String

def SignedPromotionRecord.isOf (proposalId : String) (status : PromotionStatus) (r : SignedPromotionRecord) :
    Bool := r.proposal.proposalId = proposalId ∧ r.proposal.status = status

def latestRecordHash (records : Records) : Option String := records.getLast?.map (·.recordHash)

/-- What an operation returns and the file it leaves. -/
abbrev Outcome := Except EvolveError SignedPromotionRecord × Records

/-- `append_record` of the record that was signed, or the error that came before it. -/
def appendRecord (records : Records) : Except EvolveError SignedPromotionRecord → Outcome
  | .ok record => (.ok record, records ++ [record])
  | .error e => (.error e, records)

/-- Go on with what a first append returned and left behind. -/
def Outcome.andThen (outcome : Outcome) (next : SignedPromotionRecord → Records → Outcome) : Outcome :=
  match outcome with
  | (.ok record, records) => next record records
  | (.error e, records) => (.error e, records)

def appendSigned (host : Host) (proposal : PromotionProposal) (keypair : Keypair) (clock : Clock)
    (records : Records) : Outcome :=
  appendRecord records
    (SignedPromotionRecord.sign host proposal keypair (latestRecordHash records) (clock 0))

def isFinalTransitionBlocker (blocker : String) : Bool :=
  containsText (toAsciiLowercase blocker) "final signed promotion transition"

/-- What the status asked for needs of the proposed record and of the file. -/
def transitionGuard (records : Records) (proposed : PromotionProposal) (proposalId : String) :
    PromotionStatus → Except EvolveError Unit
  | .promoted => do
    ensure (proposed.hasEvidence .ownerApproval)
      (.codex "owner approval evidence is required before final promotion")
    ensure (proposed.remainingBlockers.all isFinalTransitionBlocker)
      (.codex "remaining blockers must be resolved before final promotion")
    ensure (records.any (·.isOf proposalId .rollbackReady))
      (.codex ("rollback-ready record is required before promoting proposal '" ++ proposalId ++ "'"))
  | .rolledBack =>
    ensure (records.any (·.isOf proposalId .rollbackReady))
      (.codex ("rollback-ready record is required before rolling back promotion proposal '" ++
        proposalId ++ "'"))
  | _ => .ok ()

/-- What `append_transition` checks before it signs: the proposal it goes on from. -/
def transitionSource (records : Records) (proposalId : String) (status : PromotionStatus) :
    Except EvolveError PromotionProposal := do
  let proposed ← required (records.find? (·.isOf proposalId .proposed))
    (.codex ("no proposed record found for promotion proposal '" ++ proposalId ++ "'"))
  transitionGuard records proposed.proposal proposalId status
  .ok proposed.proposal

def rolledBackBlocker : String :=
  "promotion rollback recorded; stable use is blocked until a new signed proposal"

/-- The proposal `append_transition` signs. -/
def PromotionProposal.transitioned (proposal : PromotionProposal) (status : PromotionStatus)
    (principalId createdAt : String) : PromotionProposal :=
  { proposal with
    status := status
    createdAt := createdAt
    principalId := principalId
    remainingBlockers := (match status with
      | .promoted => []
      | .rolledBack => [rolledBackBlocker]
      | _ => proposal.remainingBlockers) }

def appendTransition (host : Host) (proposalId : String) (status : PromotionStatus) (keypair : Keypair)
    (clock : Clock) (records : Records) : Outcome :=
  appendRecord records do
    let source ← transitionSource records proposalId status
    SignedPromotionRecord.sign host
      (source.transitioned status (host.principalOf keypair.publicKey) (clock 0)) keypair
      (latestRecordHash records) (clock 1)

def appendRollbackReady (host : Host) (proposalId : String) (keypair : Keypair) (clock : Clock) :
    Records → Outcome := appendTransition host proposalId .rollbackReady keypair clock

def appendRolledBack (host : Host) (proposalId : String) (keypair : Keypair) (clock : Clock) :
    Records → Outcome := appendTransition host proposalId .rolledBack keypair clock

/-- The proposal of the probation that starts with a promotion. -/
def PromotionProposal.onProbation (proposal : PromotionProposal) (recordHash principalId createdAt
    startedAt : String) : PromotionProposal :=
  { proposal with
    status := .probation
    createdAt := createdAt
    principalId := principalId
    remainingBlockers := []
    probation := some ⟨true, recordHash, proposal.proposalId, 3, 0, startedAt, none, none⟩ }

def appendProbationForPromoted (host : Host) (promoted : SignedPromotionRecord) (keypair : Keypair)
    (clock : Clock) (records : Records) : Outcome :=
  appendRecord records (SignedPromotionRecord.sign host
    (promoted.proposal.onProbation promoted.recordHash (host.principalOf keypair.publicKey) (clock 2)
      (clock 3)) keypair (some promoted.recordHash) (clock 4))

def appendPromoted (host : Host) (proposalId : String) (keypair : Keypair) (clock : Clock)
    (records : Records) : Outcome :=
  (appendTransition host proposalId .promoted keypair clock records).andThen
    fun promoted => appendProbationForPromoted host promoted keypair clock

/-- The probation as an anomaly ends it. -/
def ProbationMetadata.broken (level : UInt8) (reason : String) (p : ProbationMetadata) : ProbationMetadata :=
  { p with probation := false, anomalyLevel := some level, anomalyReason := some reason }

def PromotionProposal.autoRolledBack (proposal : PromotionProposal) (level : UInt8) (reason principalId
    createdAt : String) : PromotionProposal :=
  { proposal with
    status := .rolledBack
    createdAt := createdAt
    principalId := principalId
    probation := proposal.probation.map (·.broken level reason)
    remainingBlockers := ["Level " ++ toString level.toNat ++
      " probation anomaly triggered automatic rollback: " ++ reason] }

/-- What `append_probation_auto_rollback` checks: the latest proposal of the id, on probation. -/
def rollbackSource (records : Records) (proposalId : String) (level : UInt8) :
    Except EvolveError PromotionProposal := do
  ensure (3 ≤ level) (.codex "probation auto-rollback requires Level 3 or higher anomaly")
  let latest ← required (records.reverse.find? (·.proposal.proposalId = proposalId))
    (.codex ("no promotion record found for proposal '" ++ proposalId ++ "'"))
  ensure (latest.proposal.status = .probation)
    (.codex "probation auto-rollback requires latest status Probation")
  .ok latest.proposal

def signRollback (host : Host) (latest : PromotionProposal) (level : UInt8) (reason : String)
    (keypair : Keypair) (clock : Clock) (records : Records) : Outcome :=
  appendRecord records (SignedPromotionRecord.sign host
    (latest.autoRolledBack level reason (host.principalOf keypair.publicKey) (clock 2)) keypair
    (latestRecordHash records) (clock 3))

def appendProbationAutoRollback (host : Host) (proposalId : String) (level : UInt8) (reason : String)
    (keypair : Keypair) (clock : Clock) (records : Records) : Outcome :=
  match rollbackSource records proposalId level with
  | .error e => (.error e, records)
  | .ok latest =>
    if records.any (·.isOf proposalId .rollbackReady) then
      signRollback host latest level reason keypair clock records
    else
      (appendTransition host proposalId .rollbackReady keypair clock records).andThen
        fun _ => signRollback host latest level reason keypair clock

/-- The loop of `verify_all` from the hash it expects next. -/
def verifyFrom (host : Host) : Option String → Records → Except EvolveError (List VerifiedPromotionRecord)
  | _, [] => .ok []
  | previous, record :: rest => do
    ensure (record.prevRecordHash = previous) (.codex "prev_record_hash chain mismatch")
    let result ← record.verify host
    let verified ← verifyFrom host (some record.recordHash) rest
    .ok (result :: verified)

def verifyAll (host : Host) (records : Records) : Except EvolveError (List VerifiedPromotionRecord) :=
  verifyFrom host none records

def latestVerifiedRecord (host : Host) (records : Records) :
    Except EvolveError (Option VerifiedPromotionRecord) := do
  let verified ← verifyAll host records
  .ok verified.getLast?

/-- The probation as it ends well. -/
def ProbationMetadata.passed (observedTurns : UInt64) (p : ProbationMetadata) : ProbationMetadata :=
  { p with probation := false, observedTurns := observedTurns, anomalyLevel := none, anomalyReason := none }

def PromotionProposal.confirmed (proposal : PromotionProposal) (observedTurns : UInt64)
    (principalId createdAt : String) : PromotionProposal :=
  { proposal with
    status := .confirmedStable
    createdAt := createdAt
    principalId := principalId
    remainingBlockers := []
    probation := proposal.probation.map (·.passed observedTurns) }

/-- What `append_confirmed_stable` checks: the last record of a file that verifies. -/
def confirmSource (host : Host) (records : Records) (proposalId : String) (observedTurns : UInt64) :
    Except EvolveError SignedPromotionRecord := do
  let _ ← verifyAll host records
  let latest ← required records.getLast?
    (.codex ("no probation record found for promotion proposal '" ++ proposalId ++ "'"))
  ensure (latest.proposal.proposalId = proposalId)
    (.codex ("confirmed stable probation exit requires proposal '" ++ proposalId ++
      "' to be the latest verified record"))
  ensure (latest.proposal.status = .probation)
    (.codex "confirmed stable probation exit requires latest status Probation")
  let probation ← required latest.proposal.probation
    (.codex "probation metadata is required before confirmed stable exit")
  ensure (probation.anomalyLevel = none ∧ probation.anomalyReason = none)
    (.codex "confirmed stable probation exit requires no probation anomalies")
  ensure (probation.requiredObservationTurns ≤ observedTurns)
    (.codex "observed_turns must meet required_observation_turns")
  .ok latest

def appendConfirmedStable (host : Host) (proposalId : String) (observedTurns : UInt64) (keypair : Keypair)
    (clock : Clock) (records : Records) : Outcome :=
  appendRecord records do
    let latest ← confirmSource host records proposalId observedTurns
    SignedPromotionRecord.sign host
      (latest.proposal.confirmed observedTurns (host.principalOf keypair.publicKey) (clock 0)) keypair
      (some latest.recordHash) (clock 1)

inductive Op where
  | appendSigned (proposal : PromotionProposal)
  | appendRollbackReady (proposalId : String)
  | appendPromoted (proposalId : String)
  | appendRolledBack (proposalId : String)
  | appendProbationAutoRollback (proposalId : String) (level : UInt8) (reason : String)
  | appendConfirmedStable (proposalId : String) (observedTurns : UInt64)

/-- One call of an operation: who signs and what the clock says. -/
structure Call where
  op : Op
  keypair : Keypair
  clock : Clock

def Call.perform (host : Host) (call : Call) (records : Records) : Outcome :=
  match call.op with
  | .appendSigned proposal => appendSigned host proposal call.keypair call.clock records
  | .appendRollbackReady id => appendRollbackReady host id call.keypair call.clock records
  | .appendPromoted id => appendPromoted host id call.keypair call.clock records
  | .appendRolledBack id => appendRolledBack host id call.keypair call.clock records
  | .appendProbationAutoRollback id level reason =>
    appendProbationAutoRollback host id level reason call.keypair call.clock records
  | .appendConfirmedStable id turns => appendConfirmedStable host id turns call.keypair call.clock records

/-- The file after a sequence of calls, failed ones included. -/
def run (host : Host) (calls : List Call) (records : Records) : Records :=
  calls.foldl (fun records call => (call.perform host records).2) records

end Zaion.Promotion
