import Zaion.Host
import Zaion.Lib.Checked
import Zaion.Lib.Text

/-! Promotion records: what a proposal must carry to pass its gate, what of it is signed, and
what the hash of a record covers. -/
namespace Zaion.Promotion

open Lib

inductive PromotionModule where
  | opd
  | evolve
  deriving DecidableEq, Repr

inductive PromotionStatus where
  | experimentalNotPromoted
  | proposed
  | promoted
  | probation
  | confirmedStable
  | rollbackReady
  | rolledBack
  deriving DecidableEq, Repr

inductive EvidenceKind where
  | opdRunManifest
  | benchmarkComparisonReport
  | mandatoryTestMatrixReport
  | testOutput
  | ownerApproval
  | other
  deriving DecidableEq, Repr

structure EvidenceHash where
  kind : EvidenceKind
  path : String
  sha256 : String
  description : String
  deriving DecidableEq, Repr

structure RollbackPlan where
  strategy : String
  disableFlag : Option String
  gitEventId : Option String
  verificationCommands : List String
  manualSteps : List String
  deriving DecidableEq, Repr

structure ProbationMetadata where
  probation : Bool
  promotionRecordId : String
  rollbackTarget : String
  requiredObservationTurns : UInt64
  observedTurns : UInt64
  startedAt : String
  anomalyLevel : Option UInt8
  anomalyReason : Option String
  deriving DecidableEq, Repr

structure PromotionProposal where
  schemaVersion : UInt8
  proposalId : String
  module : PromotionModule
  status : PromotionStatus
  changeSummary : String
  riskSummary : String
  evidenceHashes : List EvidenceHash
  rollbackPlan : Option RollbackPlan
  probation : Option ProbationMetadata
  remainingBlockers : List String
  createdAt : String
  principalId : String
  deriving DecidableEq, Repr

structure PromotionSignature where
  scheme : String
  publicKey : List UInt8
  signature : List UInt8
  contentHash : String
  signedAt : String
  deriving DecidableEq, Repr

structure SignedPromotionRecord where
  proposal : PromotionProposal
  signature : PromotionSignature
  prevRecordHash : Option String
  recordHash : String
  deriving DecidableEq, Repr

structure VerifiedPromotionRecord where
  proposalId : String
  status : PromotionStatus
  recordHash : String
  deriving DecidableEq, Repr

inductive EvolveError where
  | codex (text : String)
  /-- `Codex("signature verification failed: ..")`, whatever the verifier's own reason. -/
  | signature
  deriving DecidableEq, Repr

/-! The JSON `serde` derives: fields in declaration order, variants by name. -/

def PromotionModule.text : PromotionModule → String
  | .opd => "Opd"
  | .evolve => "Evolve"

def PromotionStatus.text : PromotionStatus → String
  | .experimentalNotPromoted => "ExperimentalNotPromoted"
  | .proposed => "Proposed"
  | .promoted => "Promoted"
  | .probation => "Probation"
  | .confirmedStable => "ConfirmedStable"
  | .rollbackReady => "RollbackReady"
  | .rolledBack => "RolledBack"

def EvidenceKind.text : EvidenceKind → String
  | .opdRunManifest => "OpdRunManifest"
  | .benchmarkComparisonReport => "BenchmarkComparisonReport"
  | .mandatoryTestMatrixReport => "MandatoryTestMatrixReport"
  | .testOutput => "TestOutput"
  | .ownerApproval => "OwnerApproval"
  | .other => "Other"

def EvidenceHash.toJson (e : EvidenceHash) : Json :=
  .obj [("kind", .str e.kind.text), ("path", .str e.path), ("sha256", .str e.sha256),
    ("description", .str e.description)]

def RollbackPlan.toJson (p : RollbackPlan) : Json :=
  .obj [("strategy", .str p.strategy), ("disable_flag", .ofOption .str p.disableFlag),
    ("git_event_id", .ofOption .str p.gitEventId),
    ("verification_commands", .arr (p.verificationCommands.map .str)),
    ("manual_steps", .arr (p.manualSteps.map .str))]

def ProbationMetadata.toJson (p : ProbationMetadata) : Json :=
  .obj [("probation", .bool p.probation), ("promotion_record_id", .str p.promotionRecordId),
    ("rollback_target", .str p.rollbackTarget),
    ("required_observation_turns", .nat p.requiredObservationTurns.toNat),
    ("observed_turns", .nat p.observedTurns.toNat), ("started_at", .str p.startedAt),
    ("anomaly_level", .ofOption (fun level => .nat level.toNat) p.anomalyLevel),
    ("anomaly_reason", .ofOption .str p.anomalyReason)]

def PromotionProposal.toJson (p : PromotionProposal) : Json :=
  .obj [("schema_version", .nat p.schemaVersion.toNat), ("proposal_id", .str p.proposalId),
    ("module", .str p.module.text), ("status", .str p.status.text),
    ("change_summary", .str p.changeSummary), ("risk_summary", .str p.riskSummary),
    ("evidence_hashes", .arr (p.evidenceHashes.map EvidenceHash.toJson)),
    ("rollback_plan", .ofOption RollbackPlan.toJson p.rollbackPlan),
    ("probation", .ofOption ProbationMetadata.toJson p.probation),
    ("remaining_blockers", .arr (p.remainingBlockers.map .str)), ("created_at", .str p.createdAt),
    ("principal_id", .str p.principalId)]

def PromotionSignature.toJson (s : PromotionSignature) : Json :=
  .obj [("scheme", .str s.scheme), ("public_key", .arr (s.publicKey.map fun byte => .nat byte.toNat)),
    ("signature", .arr (s.signature.map fun byte => .nat byte.toNat)),
    ("content_hash", .str s.contentHash), ("signed_at", .str s.signedAt)]

def isAsciiHexDigit (c : Char) : Bool :=
  ('0' ≤ c ∧ c ≤ '9') ∨ ('a' ≤ c ∧ c ≤ 'f') ∨ ('A' ≤ c ∧ c ≤ 'F')

def EvidenceHash.validate (e : EvidenceHash) : Except EvolveError Unit := do
  ensure (e.sha256.toList.length = 64 ∧ e.sha256.toList.all isAsciiHexDigit)
    (.codex "evidence sha256 must be 64 hex chars")
  ensure (trim e.path ≠ "") (.codex "evidence path must not be empty")

namespace PromotionProposal

def hasEvidence (p : PromotionProposal) (kind : EvidenceKind) : Bool := p.evidenceHashes.any (·.kind = kind)

/-- The last part of the gate, which depends on where the proposal stands. -/
def validateStatus (p : PromotionProposal) : Except EvolveError Unit :=
  match p.status with
  | .promoted | .probation | .confirmedStable => do
    ensure (p.hasEvidence .ownerApproval)
      (.codex "owner approval evidence is required before final promotion")
    ensure (p.remainingBlockers = [])
      (.codex "remaining blockers must be resolved before final promotion")
    ensure (p.status = .promoted ∨ p.probation.isSome)
      (.codex "probation metadata is required after promotion")
  | .rolledBack => ensure (p.remainingBlockers ≠ []) (.codex "rollback blocker must stay visible")
  | .experimentalNotPromoted | .proposed | .rollbackReady => do
    ensure (p.remainingBlockers ≠ []) (.codex "remaining blockers must stay visible")
    ensure (p.hasEvidence .ownerApproval ∨
        p.remainingBlockers.any fun blocker => containsText (toAsciiLowercase blocker) "owner approval")
      (.codex "owner approval blocker must stay visible until owner approval evidence exists")

def validateGate (p : PromotionProposal) : Except EvolveError Unit := do
  ensure (p.schemaVersion = 1) (.codex "promotion schema_version must be 1")
  ensure (trim p.proposalId ≠ "") (.codex "proposal_id must not be empty")
  ensure (trim p.changeSummary ≠ "") (.codex "change_summary must not be empty")
  ensure (trim p.riskSummary ≠ "") (.codex "risk_summary must not be empty")
  ensure (p.evidenceHashes ≠ []) (.codex "at least one evidence hash is required")
  checkAll EvidenceHash.validate p.evidenceHashes
  ensure (p.status = .experimentalNotPromoted ∨ p.hasEvidence .mandatoryTestMatrixReport)
    (.codex "mandatory test matrix report evidence is required")
  let plan ← required p.rollbackPlan (.codex "rollback plan is required")
  ensure (trim plan.strategy ≠ "") (.codex "rollback plan strategy is required")
  ensure (plan.verificationCommands ≠ []) (.codex "rollback plan verification_commands are required")
  p.validateStatus

end PromotionProposal

/-- What the key signs: the proposal and nothing else of the record. -/
def canonicalProposalBytes (host : Host) (p : PromotionProposal) : List UInt8 := Host.utf8 (host.toText p.toJson)

def signatureScheme : String := "ed25519-promotion-v1"

namespace SignedPromotionRecord

def computeRecordHash (host : Host) (record : SignedPromotionRecord) : String :=
  host.sha256Hex (Host.utf8 (host.toText (.obj [("proposal", record.proposal.toJson),
    ("signature", record.signature.toJson), ("prev_record_hash", .ofOption .str record.prevRecordHash)])))

/-- The record with its own hash filled in. -/
def sealed (host : Host) (record : SignedPromotionRecord) : SignedPromotionRecord :=
  { record with recordHash := record.computeRecordHash host }

def sign (host : Host) (proposal : PromotionProposal) (keypair : Keypair) (prevRecordHash : Option String)
    (signedAt : String) : Except EvolveError SignedPromotionRecord := do
  proposal.validateGate
  let canonical := canonicalProposalBytes host proposal
  let signature := ⟨signatureScheme, keypair.publicKey, host.sign keypair canonical,
    host.sha256Hex canonical, signedAt⟩
  .ok (sealed host ⟨proposal, signature, prevRecordHash, ""⟩)

def verify (host : Host) (record : SignedPromotionRecord) : Except EvolveError VerifiedPromotionRecord := do
  record.proposal.validateGate
  ensure (record.signature.scheme = signatureScheme) (.codex "unsupported promotion signature scheme")
  ensure (host.principalOf record.signature.publicKey = record.proposal.principalId)
    (.codex "promotion principal does not match signing key")
  let canonical := canonicalProposalBytes host record.proposal
  ensure (host.sha256Hex canonical = record.signature.contentHash) (.codex "content hash mismatch")
  ensure (host.verifySignature record.signature.publicKey canonical record.signature.signature) .signature
  ensure (record.computeRecordHash host = record.recordHash) (.codex "record hash mismatch")
  .ok ⟨record.proposal.proposalId, record.proposal.status, record.recordHash⟩

end SignedPromotionRecord

end Zaion.Promotion
