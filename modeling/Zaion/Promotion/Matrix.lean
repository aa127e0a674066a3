import Zaion.Promotion.Verified

/-! `evidence_matrix_report`: the report a promotion is judged by, made of every record of the
chain file. Each gate row asks for one record that shows something, of whatever proposal. -/
namespace Zaion.Promotion

open Lib

structure PromotionStageMatrixRow where
  index : Nat
  proposalId : String
  status : String
  recordHash : String
  prevRecordHash : Option String
  principalId : String
  signatureScheme : String
  contentHash : String
  evidenceKinds : List String
  hasMandatoryTestMatrix : Bool
  hasOwnerApproval : Bool
  rollbackPlanPresent : Bool
  remainingBlockers : List String
  probationActive : Bool
  requiredObservationTurns : Option UInt64
  observedTurns : Option UInt64
  anomalyLevel : Option UInt8
  anomalyReason : Option String
  deriving DecidableEq

structure PromotionGateMatrixRow where
  gate : String
  passed : Bool
  evidence : List String
  blocker : Option String
  deriving DecidableEq

structure PromotionEvidenceKindMatrixRow where
  kind : String
  count : Nat
  paths : List String
  sha256s : List String
  descriptions : List String
  deriving DecidableEq

structure PromotionEvidenceMatrixReport where
  schema : String
  chainPath : String
  chainVerified : Bool
  verifierError : Option String
  recordCount : Nat
  latestState : String
  promoted : Bool
  qualityGatePassed : Bool
  sourceRecordHashes : List String
  stageMatrix : List PromotionStageMatrixRow
  gateMatrix : List PromotionGateMatrixRow
  evidenceKindMatrix : List PromotionEvidenceKindMatrixRow
  evidenceHash : String
  reportPath : String
  deriving DecidableEq

def PromotionStageMatrixRow.toJson (r : PromotionStageMatrixRow) : Json :=
  .obj [("index", .nat r.index), ("proposal_id", .str r.proposalId), ("status", .str r.status),
    ("record_hash", .str r.recordHash), ("prev_record_hash", .ofOption .str r.prevRecordHash),
    ("principal_id", .str r.principalId), ("signature_scheme", .str r.signatureScheme),
    ("content_hash", .str r.contentHash), ("evidence_kinds", .arr (r.evidenceKinds.map .str)),
    ("has_mandatory_test_matrix", .bool r.hasMandatoryTestMatrix), ("has_owner_approval", .bool r.hasOwnerApproval),
    ("rollback_plan_present", .bool r.rollbackPlanPresent), ("remaining_blockers", .arr (r.remainingBlockers.map .str)),
    ("probation_active", .bool r.probationActive),
    ("required_observation_turns", .ofOption (fun turns => .nat turns.toNat) r.requiredObservationTurns),
    ("observed_turns", .ofOption (fun turns => .nat turns.toNat) r.observedTurns),
    ("anomaly_level", .ofOption (fun level => .nat level.toNat) r.anomalyLevel),
    ("anomaly_reason", .ofOption .str r.anomalyReason)]

def PromotionGateMatrixRow.toJson (r : PromotionGateMatrixRow) : Json :=
  .obj [("gate", .str r.gate), ("passed", .bool r.passed), ("evidence", .arr (r.evidence.map .str)),
    ("blocker", .ofOption .str r.blocker)]

def PromotionEvidenceKindMatrixRow.toJson (r : PromotionEvidenceKindMatrixRow) : Json :=
  .obj [("kind", .str r.kind), ("count", .nat r.count), ("paths", .arr (r.paths.map .str)),
    ("sha256s", .arr (r.sha256s.map .str)), ("descriptions", .arr (r.descriptions.map .str))]

def PromotionEvidenceMatrixReport.toJson (r : PromotionEvidenceMatrixReport) : Json :=
  .obj [("schema", .str r.schema), ("chain_path", .str r.chainPath), ("chain_verified", .bool r.chainVerified),
    ("verifier_error", .ofOption .str r.verifierError), ("record_count", .nat r.recordCount),
    ("latest_state", .str r.latestState), ("promoted", .bool r.promoted),
    ("quality_gate_passed", .bool r.qualityGatePassed),
    ("source_record_hashes", .arr (r.sourceRecordHashes.map .str)),
    ("stage_matrix", .arr (r.stageMatrix.map PromotionStageMatrixRow.toJson)),
    ("gate_matrix", .arr (r.gateMatrix.map PromotionGateMatrixRow.toJson)),
    ("evidence_kind_matrix", .arr (r.evidenceKindMatrix.map PromotionEvidenceKindMatrixRow.toJson)),
    ("evidence_hash", .str r.evidenceHash), ("report_path", .str r.reportPath)]

def promotionStateLabel : PromotionStatus → String
  | .experimentalNotPromoted => "not_promoted"
  | .proposed => "not_promoted"
  | .rollbackReady => "rollback_ready"
  | .promoted => "promoted_transition"
  | .probation => "promoted_probation"
  | .confirmedStable => "confirmed_stable"
  | .rolledBack => "rolled_back"

/-- `to_string` of an error; `reason` is what the verifier says of a bad signature. -/
def EvolveError.display (reason : String) : EvolveError → String
  | .codex text => "codex error: " ++ text
  | .signature => "codex error: signature verification failed: " ++ reason

def promotionStageMatrixRow (index : Nat) (record : SignedPromotionRecord) : PromotionStageMatrixRow where
  index := index
  proposalId := record.proposal.proposalId
  status := record.proposal.status.text
  recordHash := record.recordHash
  prevRecordHash := record.prevRecordHash
  principalId := record.proposal.principalId
  signatureScheme := record.signature.scheme
  contentHash := record.signature.contentHash
  evidenceKinds := record.proposal.evidenceHashes.map (·.kind.text)
  hasMandatoryTestMatrix := record.proposal.hasEvidence .mandatoryTestMatrixReport
  hasOwnerApproval := record.proposal.hasEvidence .ownerApproval
  rollbackPlanPresent := record.proposal.rollbackPlan.isSome
  remainingBlockers := record.proposal.remainingBlockers
  probationActive := (record.proposal.probation.map (·.probation)).getD false
  requiredObservationTurns := record.proposal.probation.map (·.requiredObservationTurns)
  observedTurns := record.proposal.probation.map (·.observedTurns)
  anomalyLevel := record.proposal.probation.bind (·.anomalyLevel)
  anomalyReason := record.proposal.probation.bind (·.anomalyReason)

def promotionGateRow (gate : String) (passed : Bool) (evidence : List String) (blocker : String) :
    PromotionGateMatrixRow := ⟨gate, passed, evidence, if passed then none else some blocker⟩

def evidencePathsForKind (records : Records) (kind : EvidenceKind) : List String :=
  ((records.flatMap (·.proposal.evidenceHashes)).filter (·.kind = kind)).map (·.path)

def recordHashesForStatus (records : Records) (status : PromotionStatus) : List String :=
  (records.filter (·.proposal.status = status)).map (·.recordHash)

/-- The kinds in the order of their names, as the map of the rows is. -/
def kindsByName : List EvidenceKind :=
  [.benchmarkComparisonReport, .mandatoryTestMatrixReport, .opdRunManifest, .other, .ownerApproval, .testOutput]

def promotionEvidenceKindMatrix (records : Records) : List PromotionEvidenceKindMatrixRow :=
  let evidence := records.flatMap (·.proposal.evidenceHashes)
  (kindsByName.filter fun kind => evidence.any (·.kind = kind)).map fun kind =>
    let own := evidence.filter (·.kind = kind)
    ⟨kind.text, own.length, own.map (·.path), own.map (·.sha256), own.map (·.description)⟩

namespace SignedPromotionRecord

/-- The record has evidence of the kind, with a digest of the right length. -/
def carries (kind : EvidenceKind) (record : SignedPromotionRecord) : Bool :=
  record.proposal.evidenceHashes.any fun evidence =>
    decide (evidence.kind = kind) && decide (evidence.sha256.utf8ByteSize = 64)

def stands (status : PromotionStatus) (record : SignedPromotionRecord) : Bool :=
  decide (record.proposal.status = status)

def onProbation (record : SignedPromotionRecord) : Bool :=
  record.stands .probation && record.proposal.probation.isSome

end SignedPromotionRecord

open SignedPromotionRecord

def promotionGateMatrix (chainVerified : Bool) (records : Records) (latestState : String) :
    List PromotionGateMatrixRow := [
  promotionGateRow "signed_chain_verified" chainVerified (records.map (·.recordHash))
    "promotion chain signatures and prev_record_hash lineage must verify",
  promotionGateRow "mandatory_test_matrix" (records.any (carries .mandatoryTestMatrixReport))
    (evidencePathsForKind records .mandatoryTestMatrixReport) "mandatory test matrix report evidence is required",
  promotionGateRow "rollback_ready" (records.any (stands .rollbackReady)) (recordHashesForStatus records .rollbackReady)
    "rollback-ready signed record must exist before promotion",
  promotionGateRow "owner_approval" (records.any (carries .ownerApproval)) (evidencePathsForKind records .ownerApproval)
    "signed owner approval evidence is required before final promotion",
  promotionGateRow "promoted_transition" (records.any (stands .promoted)) (recordHashesForStatus records .promoted)
    "final signed Promoted transition must exist",
  promotionGateRow "probation_record" (records.any onProbation) (recordHashesForStatus records .probation)
    "signed probation metadata is required after promotion",
  promotionGateRow "confirmed_stable_latest_state" (decide (latestState = "confirmed_stable"))
    (recordHashesForStatus records .confirmedStable) "latest verified chain state must be ConfirmedStable"]

def promotionReportHash (host : Host) (report : PromotionEvidenceMatrixReport) : String :=
  host.sha256Hex (Host.utf8 (host.toText { report with evidenceHash := "", reportPath := "" }.toJson))

/-- Of a chain file that can be read; one that cannot is an error. -/
def evidenceMatrixReport (host : Host) (reason path : String) (records : Records) (reportPath : String) :
    PromotionEvidenceMatrixReport :=
  let verification := verifyAll host records
  let chainVerified := verification.isOk
  let latestState := (records.getLast?.map fun record => promotionStateLabel record.proposal.status).getD "not_promoted"
  let promoted := decide (latestState = "confirmed_stable")
  let gateMatrix := promotionGateMatrix chainVerified records latestState
  let report : PromotionEvidenceMatrixReport := {
    schema := "zaion.opd_promotion_evidence_matrix.v1"
    chainPath := path
    chainVerified := chainVerified
    verifierError := match verification with
      | .ok _ => none
      | .error error => some (error.display reason)
    recordCount := records.length
    latestState := latestState
    promoted := promoted
    qualityGatePassed := chainVerified && promoted && gateMatrix.all (·.passed) && !records.isEmpty
    sourceRecordHashes := records.map (·.recordHash)
    stageMatrix := records.mapIdx promotionStageMatrixRow
    gateMatrix := gateMatrix
    evidenceKindMatrix := promotionEvidenceKindMatrix records
    evidenceHash := ""
    reportPath := reportPath }
  { report with evidenceHash := promotionReportHash host report }

/-- The gates that look for a record, and what they look for. -/
def gateTests : List (String × (SignedPromotionRecord → Bool)) := [
  ("mandatory_test_matrix", carries .mandatoryTestMatrixReport),
  ("rollback_ready", stands .rollbackReady),
  ("owner_approval", carries .ownerApproval),
  ("promoted_transition", stands .promoted),
  ("probation_record", onProbation)]

/-- A record of the last record's proposal passes the test. -/
def OfLast (records : Records) (test : SignedPromotionRecord → Bool) : Prop :=
  ∃ last ∈ records.getLast?, ∃ r ∈ records, r.proposal.proposalId = last.proposal.proposalId ∧ test r = true

/-- The report speaks of the promoted proposal, in its verdict and in each row. -/
structure SpeaksOfLast (host : Host) (records : Records) (report : PromotionEvidenceMatrixReport) : Prop where
  verdict : report.qualityGatePassed = true → Verifies host records ∧
    (∃ last ∈ records.getLast?, last.proposal.status = .confirmedStable) ∧
    ∀ entry ∈ gateTests, OfLast records entry.2
  rows : ∀ entry ∈ gateTests, ∀ row ∈ report.gateMatrix, row.gate = entry.1 → row.passed = true →
    OfLast records entry.2

section

variable {host : Host} {records : Records} {reason path reportPath : String}

theorem promotionStateLabel_confirmed {status : PromotionStatus} :
    promotionStateLabel status = "confirmed_stable" ↔ status = .confirmedStable := by
  cases status <;> decide

/-- The row of a gate passes when some record of the file does its test. -/
theorem gate_row_iff {chainVerified : Bool} {latestState : String} {entry : String × (SignedPromotionRecord → Bool)}
    (listed : entry ∈ gateTests) :
    (∃ row ∈ promotionGateMatrix chainVerified records latestState, row.gate = entry.1 ∧ row.passed = true) ↔
      ∃ r ∈ records, entry.2 r = true := by
  rw [← List.any_eq_true]
  simp only [gateTests,List.mem_cons,List.not_mem_nil,or_false] at listed
  rcases listed with rfl | rfl | rfl | rfl | rfl <;>
    simp [promotionGateMatrix,promotionGateRow]

theorem passed_iff : (evidenceMatrixReport host reason path records reportPath).qualityGatePassed = true ↔
    Verifies host records ∧ (∃ last ∈ records.getLast?, last.proposal.status = .confirmedStable) ∧
      ∀ entry ∈ gateTests, ∃ r ∈ records, entry.2 r = true := by
  have verified : (verifyAll host records).isOk = true ↔ Verifies host records := by
    unfold Verifies
    cases verifyAll host records <;> simp [Except.isOk,Except.toBool]
  have confirmed : (records.getLast?.map fun record => promotionStateLabel record.proposal.status).getD "not_promoted" =
      "confirmed_stable" ↔ ∃ last ∈ records.getLast?, last.proposal.status = .confirmedStable := by
    cases records.getLast? with
    | none => simp
    | some last => simp [promotionStateLabel_confirmed]
  have nonempty : (∃ last ∈ records.getLast?, last.proposal.status = .confirmedStable) → records.isEmpty = false := by
    rintro ⟨last, found, _⟩
    cases records with
    | nil => cases found
    | cons _ _ => rfl
  have gates : (∀ entry ∈ gateTests, ∃ r ∈ records, entry.2 r = true) ↔
      ∀ entry ∈ gateTests, records.any entry.2 = true := by simp [List.any_eq_true]
  rw [gates,← verified]
  simp only [evidenceMatrixReport,Bool.and_eq_true,Bool.not_eq_true',decide_eq_true_iff,confirmed,List.all_eq_true]
  simp only [promotionGateMatrix,gateTests,List.forall_mem_cons,promotionGateRow,decide_eq_true_iff,confirmed]
  constructor
  · rintro ⟨⟨⟨chain, last⟩, _, matrix, ready, owner, promoted, probation, _⟩, _⟩
    exact ⟨chain, last, matrix, ready, owner, promoted, probation, by simp⟩
  · rintro ⟨chain, last, matrix, ready, owner, promoted, probation, _⟩
    exact ⟨⟨⟨chain, last⟩, chain, matrix, ready, owner, promoted, probation, last, by simp⟩, nonempty last⟩

/-- The report speaks of the last record's proposal exactly when, of each thing a gate looks for, that
proposal has a record whenever any proposal of the file has one. -/
theorem gate_speaks_iff (host : Host) (reason path : String) (records : Records) (reportPath : String) :
    SpeaksOfLast host records (evidenceMatrixReport host reason path records reportPath) ↔
      ∀ entry ∈ gateTests, (∃ r ∈ records, entry.2 r = true) → OfLast records entry.2 := by
  constructor
  · rintro ⟨_, rows⟩ entry listed found
    obtain ⟨row, member, gate, passed⟩ := (gate_row_iff listed).mpr found
    exact rows entry listed row member gate passed
  · intro own
    refine ⟨?_, ?_⟩
    · intro passed
      obtain ⟨verifies, confirmed, found⟩ := passed_iff.mp passed
      exact ⟨verifies, confirmed, fun entry listed => own entry listed (found entry listed)⟩
    · intro entry listed row member gate passed
      exact own entry listed ((gate_row_iff listed).mp ⟨row, member, gate, passed⟩)

end

/-- Another proposal, said to be confirmed from the start. -/
def confirmedOther : PromotionProposal :=
  { ownProposal with
    proposalId := "promo-opd-002"
    status := .confirmedStable
    probation := some ⟨false, "", "promo-opd-002", 3, 3, "2026-01-01T00:00:00+00:00", none, none⟩
    remainingBlockers := [] }

/-- A first proposal was made ready, promoted and rolled back; then the other one is appended. -/
def mixedCalls : List Call := rollbackCalls ++ [sampleCall (.appendSigned confirmedOther)]

def mixedReport : PromotionEvidenceMatrixReport :=
  evidenceMatrixReport sampleHost "" "chain.jsonl" (run sampleHost mixedCalls []) "report.json"

theorem confirmedOther_gate : confirmedOther.validateGate = .ok () := by
  have own : ownProposal.validateGate = .ok () := sampleProposal_gate _
  obtain ⟨⟨version, _, change, risk, evidence, valid, plan⟩, _, _⟩ := validateGate_ok_iff.mp own
  have named : trim "promo-opd-002" ≠ "" := by decide
  exact validateGate_ok_iff.mpr ⟨⟨version, named, change, risk, evidence, valid, plan⟩, .inr rfl, rfl⟩

theorem mixed_run : ∃ record, run sampleHost mixedCalls [] = rollbackRecords ++ [record] ∧
    record.proposal = confirmedOther := by
  obtain ⟨record, signed⟩ := sign_ok sampleHost sampleKeypair confirmedOther_gate (latestRecordHash rollbackRecords)
    "2026-01-01T00:00:00+00:00"
  have signs : Signs sampleHost rollbackRecords sampleKeypair confirmedOther record := ⟨_, signed⟩
  refine ⟨record, ?_, signs.proposal⟩
  rw [mixedCalls,run_snoc]
  change (appendSigned sampleHost confirmedOther sampleKeypair (fun _ => "2026-01-01T00:00:00+00:00") rollbackRecords).2 = _
  rw [appendSigned,signed]
  rfl

theorem mixed_verifies : Verifies sampleHost (run sampleHost mixedCalls []) := by
  refine (run_verifies gated_nil fun call _ => sampleHost_signsFor call.keypair).mpr ⟨⟨[], rfl⟩, ?_⟩
  intro call member p op _
  simp only [mixedCalls,rollbackCalls,List.map_cons,List.map_nil,List.cons_append,List.nil_append,List.mem_cons,
    List.not_mem_nil,or_false] at member
  rcases member with rfl | rfl | rfl | rfl | rfl <;> cases op <;> rfl

/-- A record of the first proposal with the status. -/
theorem rollbackRecords_stands {status : PromotionStatus}
    (listed : status ∈ [PromotionStatus.proposed, .rollbackReady, .promoted, .probation, .rolledBack]) :
    ∃ r ∈ rollbackRecords, r.stands status = true := by
  have entry : ("promo-opd-001", status) ∈ rollbackRecords.map fun r => (r.proposal.proposalId, r.proposal.status) := by
    rw [rollbackRecords_states]
    exact List.mem_map_of_mem listed
  obtain ⟨r, member, same⟩ := List.mem_map.mp entry
  exact ⟨r, member, decide_eq_true (congrArg Prod.snd same)⟩

theorem rollbackRecords_id {r : SignedPromotionRecord} (member : r ∈ rollbackRecords) :
    r.proposal.proposalId = "promo-opd-001" := by
  have entry := List.mem_map_of_mem (f := fun r => (r.proposal.proposalId, r.proposal.status)) member
  rw [rollbackRecords_states] at entry
  obtain ⟨_, _, same⟩ := List.mem_map.mp entry
  exact (congrArg Prod.fst same).symm

/-- The gate of a record on probation asks for the metadata. -/
theorem onProbation_of_gate {r : SignedPromotionRecord} (gated : r.proposal.validateGate = .ok ())
    (stands : r.stands .probation = true) : r.onProbation = true := by
  have status : r.proposal.status = .probation := of_decide_eq_true stands
  have passes := (validateGate_ok_iff.mp gated).2.2
  simp only [PromotionProposal.validateStatus,status,bind_ok_iff,ensure_ok_iff] at passes
  obtain ⟨_, _, _, _, metadata⟩ := passes
  rw [onProbation,stands,Bool.true_and]
  exact metadata.resolve_left (by decide)

/-- The other proposal passes the quality gate on the records of the first. -/
theorem gate_passed_by_others :
    mixedReport.qualityGatePassed = true ∧
      ¬ SpeaksOfLast sampleHost (run sampleHost mixedCalls []) mixedReport := by
  obtain ⟨record, records, proposal⟩ := mixed_run
  have last : (run sampleHost mixedCalls []).getLast? = some record := by rw [records,List.getLast?_concat]
  have here : record ∈ run sampleHost mixedCalls [] := List.mem_of_getLast? last
  have earlier {status : PromotionStatus}
      (listed : status ∈ [PromotionStatus.proposed, .rollbackReady, .promoted, .probation, .rolledBack]) :
      ∃ r ∈ run sampleHost mixedCalls [], r.stands status = true := by
    obtain ⟨r, member, stands⟩ := rollbackRecords_stands listed
    exact ⟨r, records ▸ List.mem_append_left _ member, stands⟩
  have passed : mixedReport.qualityGatePassed = true := by
    refine passed_iff.mpr ⟨mixed_verifies, ⟨record, last, by rw [proposal]; rfl⟩, ?_⟩
    simp only [gateTests,List.forall_mem_cons]
    refine ⟨⟨record, here, ?_⟩, earlier (by decide), ⟨record, here, ?_⟩, earlier (by decide), ?_, by simp⟩
    · rw [carries,proposal]
      decide
    · rw [carries,proposal]
      decide
    · obtain ⟨r, member, stands⟩ := earlier (by decide : PromotionStatus.probation ∈ _)
      exact ⟨r, member, onProbation_of_gate (gated_run sampleHost mixedCalls r member) stands⟩
  refine ⟨passed, ?_⟩
  intro speaks
  obtain ⟨_, _, own⟩ := speaks.verdict passed
  obtain ⟨_, same, r, member, named, stands⟩ := own ("rollback_ready", stands .rollbackReady) (by simp [gateTests])
  obtain rfl := Option.some.inj (last.symm.trans same)
  rw [records,List.mem_append,List.mem_singleton] at member
  rw [proposal] at named
  rcases member with first | rfl
  · rw [rollbackRecords_id first] at named
    exact absurd named (by decide)
  · have status : r.proposal.status = .rollbackReady := of_decide_eq_true stands
    rw [proposal] at status
    cases status

end Zaion.Promotion
