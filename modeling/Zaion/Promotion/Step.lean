import Zaion.Promotion.Chain

/-! All a call can do to the file: nothing, or append records that were signed one after the
other. The gate a second record must pass follows from the gate of the first, so no call stops
half way. -/
namespace Zaion.Promotion

open Lib

/-- The record is the proposal, signed to stand after the records. -/
def Signs (host : Host) (records : Records) (keypair : Keypair) (p : PromotionProposal)
    (record : SignedPromotionRecord) : Prop :=
  ∃ signedAt, SignedPromotionRecord.sign host p keypair (latestRecordHash records) signedAt = .ok record

/-- What a successful call appends. -/
inductive Appended (host : Host) (records : Records) (call : Call) : Records → Prop where
  | signed (op : call.op = .appendSigned p) (first : Signs host records call.keypair p record) :
      Appended host records call [record]
  | readied (op : call.op = .appendRollbackReady proposalId)
      (source : transitionSource records proposalId .rollbackReady = .ok p)
      (first : Signs host records call.keypair (p.transitioned .rollbackReady
        (host.principalOf call.keypair.publicKey) createdAt) record) : Appended host records call [record]
  | rolledBack (op : call.op = .appendRolledBack proposalId)
      (source : transitionSource records proposalId .rolledBack = .ok p)
      (first : Signs host records call.keypair (p.transitioned .rolledBack
        (host.principalOf call.keypair.publicKey) createdAt) record) : Appended host records call [record]
  | promoted (op : call.op = .appendPromoted proposalId)
      (source : transitionSource records proposalId .promoted = .ok p)
      (first : Signs host records call.keypair (p.transitioned .promoted
        (host.principalOf call.keypair.publicKey) createdAt) promoted)
      (second : Signs host (records ++ [promoted]) call.keypair (promoted.proposal.onProbation
        promoted.recordHash (host.principalOf call.keypair.publicKey) createdAt' startedAt) record) :
      Appended host records call [promoted, record]
  | autoRolledBack (op : call.op = .appendProbationAutoRollback proposalId level reason)
      (source : rollbackSource records proposalId level = .ok p)
      (first : Signs host records call.keypair (p.autoRolledBack level reason
        (host.principalOf call.keypair.publicKey) createdAt) record) : Appended host records call [record]
  | readiedRolledBack (op : call.op = .appendProbationAutoRollback proposalId level reason)
      (source : rollbackSource records proposalId level = .ok p)
      (proposed : transitionSource records proposalId .rollbackReady = .ok q)
      (first : Signs host records call.keypair (q.transitioned .rollbackReady
        (host.principalOf call.keypair.publicKey) createdAt) ready)
      (second : Signs host (records ++ [ready]) call.keypair (p.autoRolledBack level reason
        (host.principalOf call.keypair.publicKey) createdAt') record) :
      Appended host records call [ready, record]
  | confirmed (op : call.op = .appendConfirmedStable proposalId turns)
      (source : confirmSource host records proposalId turns = .ok latest)
      (first : Signs host records call.keypair (latest.proposal.confirmed turns
        (host.principalOf call.keypair.publicKey) createdAt) record) : Appended host records call [record]

/-- A call fails and leaves the file, or succeeds and appends. -/
inductive Performed (host : Host) (records : Records) (call : Call) : Outcome → Prop where
  | failed : Performed host records call (.error e, records)
  | succeeded (appended : Appended host records call new) :
      Performed host records call (.ok record, records ++ new)

/-- Every record of the file passed its gate when it was signed. -/
def Gated (records : Records) : Prop := ∀ r ∈ records, r.proposal.validateGate = .ok ()

variable {host : Host} {records : Records} {record : SignedPromotionRecord} {p q : PromotionProposal}
  {keypair : Keypair} {call : Call} {proposalId : String} {status : PromotionStatus}

/-- The part of the gate that does not depend on the status. -/
structure PromotionProposal.WellFormed (p : PromotionProposal) : Prop where
  schemaVersion : p.schemaVersion = 1
  proposalId : trim p.proposalId ≠ ""
  changeSummary : trim p.changeSummary ≠ ""
  riskSummary : trim p.riskSummary ≠ ""
  evidence : p.evidenceHashes ≠ []
  evidenceValid : ∀ e ∈ p.evidenceHashes, e.validate = .ok ()
  plan : ∃ plan, p.rollbackPlan = some plan ∧ trim plan.strategy ≠ "" ∧ plan.verificationCommands ≠ []

theorem validateGate_ok_iff : p.validateGate = .ok () ↔ p.WellFormed ∧
    (p.status = .experimentalNotPromoted ∨ p.hasEvidence .mandatoryTestMatrixReport) ∧
      p.validateStatus = .ok () := by
  simp only [PromotionProposal.validateGate,bind_ok_iff,ensure_ok_iff,required_ok_iff,exists_const]
  constructor
  · rintro ⟨schemaVersion, proposalId, change, risk, evidence, ⟨⟩, valid, matrix, plan, found, strategy,
      commands, status⟩
    exact ⟨⟨schemaVersion, proposalId, change, risk, evidence, checkAll_ok_iff.mp valid, plan, found,
      strategy, commands⟩, matrix, status⟩
  · rintro ⟨⟨schemaVersion, proposalId, change, risk, evidence, valid, plan, found, strategy, commands⟩,
      matrix, status⟩
    exact ⟨schemaVersion, proposalId, change, risk, evidence, (), checkAll_ok_iff.mpr valid, matrix, plan,
      found, strategy, commands, status⟩

/-- A proposal that keeps its evidence and its plan passes on when its new status allows it. -/
theorem validateGate_moved (gated : p.validateGate = .ok ()) (named : p.status ≠ .experimentalNotPromoted)
    (kept : p.WellFormed → q.WellFormed) (evidence : q.evidenceHashes = p.evidenceHashes)
    (passes : q.validateStatus = .ok ()) : q.validateGate = .ok () := by
  obtain ⟨formed, matrix, _⟩ := validateGate_ok_iff.mp gated
  refine validateGate_ok_iff.mpr ⟨kept formed, .inr ?_, passes⟩
  rw [PromotionProposal.hasEvidence,evidence]
  exact matrix.resolve_left named

theorem PromotionProposal.WellFormed.of_fields (formed : p.WellFormed)
    (schemaVersion : q.schemaVersion = p.schemaVersion) (proposalId : q.proposalId = p.proposalId)
    (change : q.changeSummary = p.changeSummary) (risk : q.riskSummary = p.riskSummary)
    (evidence : q.evidenceHashes = p.evidenceHashes) (plan : q.rollbackPlan = p.rollbackPlan) :
    q.WellFormed := by
  obtain ⟨v, i, c, r, e, valid, hp⟩ := formed
  exact ⟨schemaVersion ▸ v, proposalId ▸ i, change ▸ c, risk ▸ r, evidence ▸ e, evidence ▸ valid, plan ▸ hp⟩

theorem rollbackReady_gate (gated : p.validateGate = .ok ()) (status : p.status = .proposed)
    (principal createdAt : String) :
    (p.transitioned .rollbackReady principal createdAt).validateGate = .ok () := by
  apply validateGate_moved gated (by simp [status])
  · exact fun formed => formed.of_fields rfl rfl rfl rfl rfl rfl
  · rfl
  · have passes := (validateGate_ok_iff.mp gated).2.2
    rw [PromotionProposal.validateStatus,status] at passes
    exact passes

theorem probation_gate (gated : p.validateGate = .ok ()) (status : p.status = .promoted)
    (hash principal createdAt startedAt : String) :
    (p.onProbation hash principal createdAt startedAt).validateGate = .ok () := by
  apply validateGate_moved gated (by simp [status])
  · exact fun formed => formed.of_fields rfl rfl rfl rfl rfl rfl
  · rfl
  · have passes := (validateGate_ok_iff.mp gated).2.2
    rw [PromotionProposal.validateStatus,status] at passes
    simp only [bind_ok_iff,ensure_ok_iff,exists_const] at passes
    have approved : (p.onProbation hash principal createdAt startedAt).hasEvidence .ownerApproval := passes.1
    rw [PromotionProposal.onProbation] at approved ⊢
    simp [PromotionProposal.validateStatus,approved]

theorem autoRolledBack_gate (gated : p.validateGate = .ok ()) (status : p.status = .probation) (level : UInt8)
    (reason principal createdAt : String) :
    (p.autoRolledBack level reason principal createdAt).validateGate = .ok () := by
  apply validateGate_moved gated (by simp [status])
  · exact fun formed => formed.of_fields rfl rfl rfl rfl rfl rfl
  · rfl
  · simp [PromotionProposal.validateStatus,PromotionProposal.autoRolledBack]

theorem Signs.gate (signs : Signs host records keypair p record) : p.validateGate = .ok () := by
  obtain ⟨_, signed⟩ := signs
  simp only [SignedPromotionRecord.sign,bind_ok_iff] at signed
  obtain ⟨_, gated, _⟩ := signed
  exact gated

theorem Signs.proposal (signs : Signs host records keypair p record) : record.proposal = p := by
  obtain ⟨_, signed⟩ := signs
  simp only [SignedPromotionRecord.sign,bind_ok_iff,Except.ok.injEq] at signed
  obtain ⟨_, _, rfl⟩ := signed
  rfl

theorem sign_ok (host : Host) (keypair : Keypair) (gated : p.validateGate = .ok ())
    (prev : Option String) (signedAt : String) :
    ∃ record, SignedPromotionRecord.sign host p keypair prev signedAt = .ok record := by
  rw [SignedPromotionRecord.sign,gated]
  exact ⟨_, rfl⟩

theorem latestRecordHash_snoc : latestRecordHash (records ++ [record]) = some record.recordHash := by
  simp [latestRecordHash]

theorem appendTransition_cases (host : Host) (proposalId : String) (status : PromotionStatus) (keypair : Keypair)
    (clock : Clock) (records : Records) :
    (∃ e, appendTransition host proposalId status keypair clock records = (.error e, records)) ∨
    ∃ p record createdAt, transitionSource records proposalId status = .ok p ∧
      Signs host records keypair (p.transitioned status (host.principalOf keypair.publicKey) createdAt)
        record ∧
      appendTransition host proposalId status keypair clock records = (.ok record, records ++ [record]) := by
  rw [appendTransition]
  cases source : transitionSource records proposalId status with
  | error e => exact .inl ⟨e, rfl⟩
  | ok p =>
    simp only [ok_bind]
    cases signed : SignedPromotionRecord.sign host (p.transitioned status
        (host.principalOf keypair.publicKey) (clock 0)) keypair (latestRecordHash records) (clock 1) with
    | error e => exact .inl ⟨e, rfl⟩
    | ok record => exact .inr ⟨p, record, clock 0, rfl, ⟨clock 1, signed⟩, rfl⟩

/-- A transition that passes the checks and the gate goes through. -/
theorem appendTransition_ok {clock : Clock} (source : transitionSource records proposalId status = .ok p)
    (passes : (p.transitioned status (host.principalOf keypair.publicKey) (clock 0)).validateGate = .ok ()) :
    ∃ record, Signs host records keypair (p.transitioned status (host.principalOf keypair.publicKey)
        (clock 0)) record ∧
      appendTransition host proposalId status keypair clock records = (.ok record, records ++ [record]) := by
  obtain ⟨record, signed⟩ := sign_ok host keypair passes (latestRecordHash records) (clock 1)
  refine ⟨record, ⟨clock 1, signed⟩, ?_⟩
  rw [appendTransition,source,ok_bind,signed]
  rfl

theorem transitionSource_proposed (source : transitionSource records proposalId status = .ok p) :
    ∃ r ∈ records, r.proposal = p ∧ p.proposalId = proposalId ∧ p.status = .proposed := by
  simp only [transitionSource,bind_ok_iff,required_ok_iff,Except.ok.injEq] at source
  obtain ⟨r, found, _, _, rfl⟩ := source
  have known := List.find?_some found
  simp only [SignedPromotionRecord.isOf,decide_eq_true_eq] at known
  exact ⟨r, List.mem_of_find?_eq_some found, rfl, known⟩

theorem rollbackSource_probation {level : UInt8} (source : rollbackSource records proposalId level = .ok p) :
    ∃ r ∈ records, r.proposal = p ∧ p.proposalId = proposalId ∧ p.status = .probation := by
  simp only [rollbackSource,bind_ok_iff,required_ok_iff,ensure_ok_iff,exists_const,Except.ok.injEq] at source
  obtain ⟨_, r, found, status, rfl⟩ := source
  have known := List.find?_some found
  exact ⟨r, List.mem_reverse.mp (List.mem_of_find?_eq_some found), rfl, by simpa using known, status⟩

theorem confirmSource_ok {turns : UInt64} {latest : SignedPromotionRecord}
    (source : confirmSource host records proposalId turns = .ok latest) :
    records.getLast? = some latest ∧ latest.isOf proposalId .probation ∧ ∃ probation,
      latest.proposal.probation = some probation ∧ probation.anomalyLevel = none ∧
        probation.anomalyReason = none := by
  simp only [confirmSource,bind_ok_iff,required_ok_iff,ensure_ok_iff,exists_const,Except.ok.injEq] at source
  obtain ⟨_, _, last, found, named, status, probation, metadata, clean, _, rfl⟩ := source
  exact ⟨found, by simp [SignedPromotionRecord.isOf,named,status], probation, metadata, clean⟩

theorem latestRecordHash_last (found : records.getLast? = some record) :
    latestRecordHash records = some record.recordHash := by rw [latestRecordHash,found]; rfl

theorem appendRollbackReady_performed (op : call.op = .appendRollbackReady proposalId) :
    Performed host records call (appendRollbackReady host proposalId call.keypair call.clock records) := by
  rw [appendRollbackReady]
  rcases appendTransition_cases host proposalId .rollbackReady call.keypair call.clock records with
    ⟨e, same⟩ | ⟨p, record, createdAt, source, signs, same⟩
  · rw [same]
    exact .failed
  · rw [same]
    exact .succeeded (.readied op source signs)

theorem appendRolledBack_performed (op : call.op = .appendRolledBack proposalId) :
    Performed host records call (appendRolledBack host proposalId call.keypair call.clock records) := by
  rw [appendRolledBack]
  rcases appendTransition_cases host proposalId .rolledBack call.keypair call.clock records with
    ⟨e, same⟩ | ⟨p, record, createdAt, source, signs, same⟩
  · rw [same]
    exact .failed
  · rw [same]
    exact .succeeded (.rolledBack op source signs)

/-- The probation of a promotion that went through is always appended. -/
theorem appendPromoted_ok {promoted : SignedPromotionRecord} {createdAt : String} {clock : Clock}
    (signs : Signs host records keypair (p.transitioned .promoted (host.principalOf keypair.publicKey)
      createdAt) promoted)
    (first : appendTransition host proposalId .promoted keypair clock records =
      (.ok promoted, records ++ [promoted])) :
    ∃ record, Signs host (records ++ [promoted]) keypair (promoted.proposal.onProbation promoted.recordHash
        (host.principalOf keypair.publicKey) (clock 2) (clock 3)) record ∧
      appendPromoted host proposalId keypair clock records = (.ok record, records ++ [promoted, record]) := by
  have passes : promoted.proposal.validateGate = .ok () := signs.proposal ▸ signs.gate
  have status : promoted.proposal.status = .promoted := by rw [signs.proposal]; rfl
  obtain ⟨record, signed⟩ := sign_ok host keypair (probation_gate passes status promoted.recordHash
    (host.principalOf keypair.publicKey) (clock 2) (clock 3)) (some promoted.recordHash) (clock 4)
  refine ⟨record, ⟨clock 4, by rw [latestRecordHash_snoc]; exact signed⟩, ?_⟩
  rw [appendPromoted,first,Outcome.andThen,appendProbationForPromoted,signed]
  simp only [appendRecord,List.append_assoc,List.singleton_append]

theorem appendPromoted_performed (op : call.op = .appendPromoted proposalId) :
    Performed host records call (appendPromoted host proposalId call.keypair call.clock records) := by
  rcases appendTransition_cases host proposalId .promoted call.keypair call.clock records with
    ⟨e, same⟩ | ⟨p, promoted, createdAt, source, signs, same⟩
  · rw [appendPromoted,same]
    exact .failed
  · obtain ⟨record, second, done⟩ := appendPromoted_ok signs same
    rw [done]
    exact .succeeded (.promoted op source signs second)

theorem signRollback_signs (host : Host) (keypair : Keypair) (level : UInt8) (reason : String) (clock : Clock)
    (gated : p.validateGate = .ok ()) (status : p.status = .probation) (records : Records) :
    ∃ record, Signs host records keypair (p.autoRolledBack level reason
      (host.principalOf keypair.publicKey) (clock 2)) record ∧
      signRollback host p level reason keypair clock records = (.ok record, records ++ [record]) := by
  obtain ⟨record, signed⟩ := sign_ok host keypair
    (autoRolledBack_gate gated status level reason (host.principalOf keypair.publicKey) (clock 2))
    (latestRecordHash records) (clock 3)
  refine ⟨record, ⟨clock 3, signed⟩, ?_⟩
  rw [signRollback,signed]
  rfl

theorem appendProbationAutoRollback_performed {level : UInt8} {reason : String} (gated : Gated records)
    (op : call.op = .appendProbationAutoRollback proposalId level reason) :
    Performed host records call
      (appendProbationAutoRollback host proposalId level reason call.keypair call.clock records) := by
  rw [appendProbationAutoRollback]
  cases source : rollbackSource records proposalId level with
  | error e => exact .failed
  | ok p =>
    obtain ⟨r, member, rfl, _, status⟩ := rollbackSource_probation source
    have passes := gated r member
    simp only
    split
    · obtain ⟨record, signs, same⟩ := signRollback_signs host call.keypair level reason call.clock
        passes status records
      rw [same]
      exact .succeeded (.autoRolledBack op source signs)
    · rcases appendTransition_cases host proposalId .rollbackReady call.keypair call.clock records with
        ⟨e, same⟩ | ⟨q, ready, createdAt, proposed, first, same⟩
      · rw [same]
        exact .failed
      · obtain ⟨record, second, same'⟩ := signRollback_signs host call.keypair level reason call.clock
          passes status (records ++ [ready])
        rw [same,Outcome.andThen,same',List.append_assoc]
        exact .succeeded (.readiedRolledBack op source proposed first second)

theorem appendSigned_performed (op : call.op = .appendSigned p) :
    Performed host records call (appendSigned host p call.keypair call.clock records) := by
  rw [appendSigned]
  cases signed : SignedPromotionRecord.sign host p call.keypair (latestRecordHash records)
      (call.clock 0) with
  | error e => exact .failed
  | ok record => exact .succeeded (.signed op ⟨_, signed⟩)

theorem appendConfirmedStable_performed {turns : UInt64} (op : call.op = .appendConfirmedStable proposalId turns) :
    Performed host records call
      (appendConfirmedStable host proposalId turns call.keypair call.clock records) := by
  rw [appendConfirmedStable]
  cases source : confirmSource host records proposalId turns with
  | error e => exact .failed
  | ok latest =>
    have last := latestRecordHash_last (confirmSource_ok source).1
    simp only [ok_bind]
    rw [← last]
    cases signed : SignedPromotionRecord.sign host (latest.proposal.confirmed turns
        (host.principalOf call.keypair.publicKey) (call.clock 0)) call.keypair (latestRecordHash records)
        (call.clock 1) with
    | error e => exact .failed
    | ok record => exact .succeeded (.confirmed op source ⟨_, signed⟩)

theorem perform_cases (gated : Gated records) (call : Call) :
    Performed host records call (call.perform host records) := by
  obtain ⟨op, keypair, clock⟩ := call
  cases op with
  | appendSigned => exact appendSigned_performed rfl
  | appendRollbackReady => exact appendRollbackReady_performed rfl
  | appendPromoted => exact appendPromoted_performed rfl
  | appendRolledBack => exact appendRolledBack_performed rfl
  | appendProbationAutoRollback => exact appendProbationAutoRollback_performed gated rfl
  | appendConfirmedStable => exact appendConfirmedStable_performed rfl

/-- Appended records passed the gate. -/
theorem Appended.gate {new : Records} (appended : Appended host records call new) :
    ∀ r ∈ new, r.proposal.validateGate = .ok () := by
  cases appended with
  | signed _ first | readied _ _ first | rolledBack _ _ first | autoRolledBack _ _ first
  | confirmed _ _ first =>
    intro r member
    obtain rfl := List.mem_singleton.mp member
    exact first.proposal ▸ first.gate
  | promoted _ _ first second | readiedRolledBack _ _ _ first second =>
    intro r member
    rcases List.mem_cons.mp member with rfl | member
    · exact first.proposal ▸ first.gate
    · obtain rfl := List.mem_singleton.mp member
      exact second.proposal ▸ second.gate

theorem run_snoc (calls : List Call) : run host (calls ++ [call]) records =
    (call.perform host (run host calls records)).2 := by
  rw [run,List.foldl_append]
  rfl

theorem Gated.perform (gated : Gated records) (call : Call) : Gated (call.perform host records).2 := by
  have performed : Performed host records call (call.perform host records) := perform_cases gated call
  revert performed
  generalize call.perform host records = outcome
  intro performed
  cases performed with
  | failed => exact gated
  | succeeded appended =>
    intro r member
    rcases List.mem_append.mp member with old | new
    · exact gated r old
    · exact appended.gate r new

theorem Gated.run (gated : Gated records) (calls : List Call) : Gated (run host calls records) := by
  induction calls generalizing records with
  | nil => exact gated
  | cons call calls ih => exact ih (gated.perform call)

end Zaion.Promotion
