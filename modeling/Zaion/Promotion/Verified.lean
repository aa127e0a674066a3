import Zaion.Promotion.Step
import Zaion.Sample

/-! Whether the file a run leaves verifies. `sign` runs the gate and nothing more; `verify` asks
besides that the proposal names the principal of the signing key. Every transition sets that
field, `append_signed` takes it from its caller. -/
namespace Zaion.Promotion

open Lib

variable {host : Host} {records : Records} {record : SignedPromotionRecord} {p : PromotionProposal}
  {keypair : Keypair} {call : Call}

def Verifies (host : Host) (records : Records) : Prop := ∃ verified, verifyAll host records = .ok verified

theorem verifyFrom_snoc {previous : Option String} :
    (∃ verified, verifyFrom host previous (records ++ [record]) = .ok verified) ↔
      (∃ verified, verifyFrom host previous records = .ok verified) ∧
      record.prevRecordHash = (latestRecordHash records).or previous ∧
      ∃ result, record.verify host = .ok result := by
  induction records generalizing previous with
  | nil =>
    simp only [List.nil_append,verifyFrom,bind_ok_iff,ensure_ok_iff,exists_const,Except.ok.injEq]
    constructor
    · rintro ⟨verified, linked, result, holds, _⟩
      exact ⟨⟨[], rfl⟩, linked, result, holds⟩
    · rintro ⟨_, linked, result, holds⟩
      exact ⟨[result], linked, result, holds, [], rfl, rfl⟩
  | cons first rest ih =>
    have last : (latestRecordHash (first :: rest)).or previous =
        (latestRecordHash rest).or (some first.recordHash) := by
      cases rest with
      | nil => rfl
      | cons second rest =>
        have found : (second :: rest).getLast? = some ((second :: rest).getLast (by simp)) :=
          List.getLast?_eq_some_getLast (by simp)
        simp only [latestRecordHash,List.getLast?_cons_cons,found,Option.map_some,Option.some_or]
    rw [last]
    simp only [List.cons_append,verifyFrom,bind_ok_iff,ensure_ok_iff,exists_const,Except.ok.injEq]
    constructor
    · rintro ⟨_, linked, result, holds, verified, later, _⟩
      obtain ⟨⟨verified, earlier⟩, tail⟩ := ih.mp ⟨verified, later⟩
      exact ⟨⟨_, linked, result, holds, verified, earlier, rfl⟩, tail⟩
    · rintro ⟨⟨_, linked, result, holds, verified, earlier, _⟩, tail⟩
      obtain ⟨verified, later⟩ := ih.mpr ⟨⟨verified, earlier⟩, tail⟩
      exact ⟨_, linked, result, holds, verified, later, rfl⟩

/-- A file grows by records that verify on their own and name the last hash. -/
theorem verifies_snoc : Verifies host (records ++ [record]) ↔ Verifies host records ∧
    record.prevRecordHash = latestRecordHash records ∧ ∃ result, record.verify host = .ok result := by
  rw [Verifies,verifyAll,verifyFrom_snoc,Option.or_none]
  rfl

theorem Signs.prev (signs : Signs host records keypair p record) :
    record.prevRecordHash = latestRecordHash records := by
  obtain ⟨_, signed⟩ := signs
  simp only [SignedPromotionRecord.sign,bind_ok_iff,Except.ok.injEq] at signed
  obtain ⟨_, _, rfl⟩ := signed
  rfl

/-- What `verify` asks of a record, whatever stands before it. -/
structure Valid (host : Host) (record : SignedPromotionRecord) : Prop where
  gate : record.proposal.validateGate = .ok ()
  scheme : record.signature.scheme = signatureScheme
  principal : host.principalOf record.signature.publicKey = record.proposal.principalId
  content : host.sha256Hex (canonicalProposalBytes host record.proposal) = record.signature.contentHash
  signature : host.verifySignature record.signature.publicKey (canonicalProposalBytes host record.proposal)
    record.signature.signature = true
  hash : record.computeRecordHash host = record.recordHash

theorem verify_ok_iff : (∃ result, record.verify host = .ok result) ↔ Valid host record := by
  simp only [SignedPromotionRecord.verify,bind_ok_iff,ensure_ok_iff,exists_const,Except.ok.injEq]
  constructor
  · rintro ⟨_, ⟨⟩, gate, scheme, principal, content, signature, hash, _⟩
    exact ⟨gate, scheme, principal, content, signature, hash⟩
  · rintro ⟨gate, scheme, principal, content, signature, hash⟩
    exact ⟨_, (), gate, scheme, principal, content, signature, hash, rfl⟩

/-- Of what `verify` asks, signing leaves one thing open. -/
theorem Signs.verify_iff (signs : Signs host records keypair p record) (correct : host.SignsFor keypair) :
    (∃ result, record.verify host = .ok result) ↔ p.principalId = host.principalOf keypair.publicKey := by
  obtain ⟨signedAt, signed⟩ := signs
  simp only [SignedPromotionRecord.sign,bind_ok_iff,Except.ok.injEq] at signed
  obtain ⟨_, gated, rfl⟩ := signed
  rw [verify_ok_iff]
  constructor
  · exact fun valid => valid.principal.symm
  · exact fun own => ⟨gated, rfl, own.symm, rfl, correct _, rfl⟩

theorem Signs.verifies (signs : Signs host records keypair p record) (correct : host.SignsFor keypair) :
    Verifies host (records ++ [record]) ↔
      Verifies host records ∧ p.principalId = host.principalOf keypair.publicKey := by
  rw [verifies_snoc,signs.verify_iff correct]
  simp [signs.prev]

/-- A call of `append_signed` that passes the gate names the signer's own principal. -/
def Honest (host : Host) (call : Call) : Prop :=
  ∀ proposal, call.op = .appendSigned proposal → proposal.validateGate = .ok () →
    proposal.principalId = host.principalOf call.keypair.publicKey

theorem Appended.verifies {new : Records} (appended : Appended host records call new)
    (correct : host.SignsFor call.keypair) :
    Verifies host (records ++ new) ↔ Verifies host records ∧ Honest host call := by
  cases appended with
  | signed op first =>
    rw [first.verifies correct]
    constructor
    · rintro ⟨verified, own⟩
      refine ⟨verified, fun p op' _ => ?_⟩
      cases op.symm.trans op'
      exact own
    · rintro ⟨verified, honest⟩
      exact ⟨verified, honest _ op first.gate⟩
  | readied op _ first | rolledBack op _ first | autoRolledBack op _ first | confirmed op _ first =>
    have trivially : Honest host call := fun p op' => by cases op.symm.trans op'
    rw [first.verifies correct]
    exact ⟨fun both => ⟨both.1, trivially⟩, fun both => ⟨both.1, rfl⟩⟩
  | promoted op _ first second | readiedRolledBack op _ _ first second =>
    have trivially : Honest host call := fun p op' => by cases op.symm.trans op'
    rw [List.append_cons,second.verifies correct,first.verifies correct]
    exact ⟨fun both => ⟨both.1.1, trivially⟩, fun both => ⟨⟨both.1, rfl⟩, rfl⟩⟩

/-- A call that appends nothing was no gated `append_signed`. -/
theorem honest_of_failed {e : EvolveError} (failed : (call.perform host records).1 = .error e) :
    Honest host call := by
  intro p op gated
  obtain ⟨op', keypair, clock⟩ := call
  cases op
  obtain ⟨record, signed⟩ := sign_ok host keypair gated (latestRecordHash records) (clock 0)
  rw [Call.perform] at failed
  simp only [appendSigned,signed,appendRecord] at failed
  cases failed

theorem perform_verifies (gated : Gated records) (correct : host.SignsFor call.keypair) :
    Verifies host (call.perform host records).2 ↔ Verifies host records ∧ Honest host call := by
  have performed : Performed host records call (call.perform host records) := perform_cases gated call
  have failed := @honest_of_failed host records call
  revert performed failed
  generalize call.perform host records = outcome
  intro performed failed
  cases performed with
  | failed => exact ⟨fun verified => ⟨verified, failed rfl⟩, fun both => both.1⟩
  | succeeded appended => exact appended.verifies correct

theorem run_verifies (gated : Gated records) {calls : List Call}
    (correct : ∀ call ∈ calls, host.SignsFor call.keypair) :
    Verifies host (run host calls records) ↔
      Verifies host records ∧ ∀ call ∈ calls, Honest host call := by
  induction calls generalizing records with
  | nil => simp [run]
  | cons call calls ih =>
    rw [run,List.foldl_cons]
    have later : Gated (call.perform host records).2 := gated.perform call
    have rest := ih later fun other member => correct other (List.mem_cons_of_mem _ member)
    rw [run] at rest
    rw [rest,perform_verifies gated (correct call List.mem_cons_self),List.forall_mem_cons,and_assoc]

/-- The file verifies, keeps what it has, and a failed call adds nothing. -/
structure NeverPoisoned (host : Host) (calls : List Call) : Prop where
  verifies : Verifies host (run host calls [])
  kept : ∀ before call after, calls = before ++ call :: after →
    run host before [] <+: run host (before ++ [call]) []
  unchanged : ∀ before call after e, calls = before ++ call :: after →
    (call.perform host (run host before [])).1 = .error e →
      run host (before ++ [call]) [] = run host before []

theorem gated_nil : Gated [] := fun _ member => by cases member

theorem gated_run (host : Host) (calls : List Call) : Gated (run host calls []) := gated_nil.run calls

/-- With correct signatures, the chain verifies after a run exactly when every proposal that
`append_signed` took in names the principal that signed it. -/
theorem never_poisoned_iff (host : Host) (calls : List Call)
    (correct : ∀ call ∈ calls, host.SignsFor call.keypair) :
    NeverPoisoned host calls ↔ ∀ call ∈ calls, Honest host call := by
  have empty : Verifies host [] := ⟨[], rfl⟩
  have verified := run_verifies gated_nil correct
  constructor
  · exact fun sound => (verified.mp sound.verifies).2
  · intro honest
    refine ⟨verified.mpr ⟨empty, honest⟩, ?_, ?_⟩
    · intro before call _ _
      rw [run_snoc]
      have performed : Performed host (run host before []) call _ := perform_cases (gated_run host before) call
      revert performed
      generalize call.perform host (run host before []) = outcome
      intro performed
      cases performed with
      | failed => exact List.prefix_refl _
      | succeeded => exact List.prefix_append _ _
    · intro before call _ e _ failed
      rw [run_snoc]
      have performed : Performed host (run host before []) call _ := perform_cases (gated_run host before) call
      revert performed failed
      generalize call.perform host (run host before []) = outcome
      intro failed performed
      cases performed with
      | failed => rfl
      | succeeded => cases failed

theorem sampleHost_signsFor (keypair : Keypair) : sampleHost.SignsFor keypair := fun _ => decide_eq_true rfl

def sampleKeypair : Keypair := ⟨[7], [7]⟩

def sampleDigest : String := "cccccccccccccccccccccccccccccccccccccccccccccccccccccccccccccccc"

def sampleEvidence (kind : EvidenceKind) : EvidenceHash := ⟨kind, "out/report.json", sampleDigest, "report"⟩

def sampleProposal (principalId : String) : PromotionProposal :=
  ⟨1, "promo-opd-001", .opd, .proposed, "enable opd", "low",
    [sampleEvidence .mandatoryTestMatrixReport, sampleEvidence .ownerApproval],
    some ⟨"disable flag", none, none, ["cargo test"], []⟩, none,
    ["final signed promotion transition has not executed"], "2026-01-01T00:00:00+00:00", principalId⟩

theorem sampleEvidence_valid (kind : EvidenceKind) : (sampleEvidence kind).validate = .ok () := by
  have digest : sampleDigest.toList.length = 64 ∧ sampleDigest.toList.all isAsciiHexDigit := by
    decide +kernel
  have path : trim "out/report.json" ≠ "" := by decide
  simp only [EvidenceHash.validate,sampleEvidence,bind_ok_iff]
  exact ⟨(), ensure_of digest, ensure_of path⟩

theorem sampleProposal_gate (principalId : String) : (sampleProposal principalId).validateGate = .ok () := by
  refine validateGate_ok_iff.mpr ⟨⟨rfl, ?_, ?_, ?_, ?_, ?_, _, rfl, ?_, ?_⟩, .inr rfl, ?_⟩
  · exact (by decide : trim "promo-opd-001" ≠ "")
  · exact (by decide : trim "enable opd" ≠ "")
  · exact (by decide : trim "low" ≠ "")
  · exact List.cons_ne_nil _ _
  · intro e member
    simp only [sampleProposal,List.mem_cons,List.not_mem_nil,or_false] at member
    rcases member with rfl | rfl
    · exact sampleEvidence_valid _
    · exact sampleEvidence_valid _
  · decide
  · exact List.cons_ne_nil _ _
  · rfl

def sampleCall (op : Op) : Call := ⟨op, sampleKeypair, fun _ => "2026-01-01T00:00:00+00:00"⟩

def ownProposal : PromotionProposal := sampleProposal (sampleHost.principalOf sampleKeypair.publicKey)

theorem never_poisoned_own_principal :
    NeverPoisoned sampleHost [sampleCall (.appendSigned ownProposal)] := by
  apply (never_poisoned_iff sampleHost _ fun call _ => sampleHost_signsFor call.keypair).mpr
  intro call member p op _
  obtain rfl := List.mem_singleton.mp member
  cases op
  rfl

/-- `append_signed` takes a proposal in another's name, and the file no longer verifies. -/
theorem foreign_principal_poisons :
    ¬ NeverPoisoned sampleHost [sampleCall (.appendSigned (sampleProposal "zaion1mallory"))] := by
  intro sound
  have honest := (run_verifies gated_nil fun call _ => sampleHost_signsFor call.keypair).mp sound.verifies
  have named := honest.2 _ List.mem_cons_self _ rfl (sampleProposal_gate _)
  revert named
  decide

/-- Proposed, made ready, promoted onto probation, and rolled back. -/
def rollbackCalls : List Call :=
  [.appendSigned ownProposal, .appendRollbackReady "promo-opd-001", .appendPromoted "promo-opd-001",
    .appendRolledBack "promo-opd-001"].map sampleCall

def rollbackRecords : Records := run sampleHost rollbackCalls []

theorem rollbackRecords_told :
    rollbackRecords.map (fun r => (r.proposal.proposalId, r.proposal.status, r.proposal.principalId)) =
      [.proposed, .rollbackReady, .promoted, .probation, .rolledBack].map fun status =>
        ("promo-opd-001", status, sampleHost.principalOf sampleKeypair.publicKey) := by
  decide +kernel

theorem rollbackRecords_states : rollbackRecords.map (fun r => (r.proposal.proposalId, r.proposal.status)) =
    [.proposed, .rollbackReady, .promoted, .probation, .rolledBack].map fun status =>
      ("promo-opd-001", status) := by
  have told := congrArg (List.map fun entry => (entry.1, entry.2.1)) rollbackRecords_told
  rwa [List.map_map,List.map_map] at told

theorem rollbackRecords_principal : ∀ r ∈ rollbackRecords,
    r.proposal.principalId = sampleHost.principalOf sampleKeypair.publicKey := by
  intro r member
  have told := List.mem_map_of_mem (f := fun r =>
    (r.proposal.proposalId, r.proposal.status, r.proposal.principalId)) member
  rw [rollbackRecords_told] at told
  obtain ⟨_, _, same⟩ := List.mem_map.mp told
  exact (congrArg (·.2.2) same).symm

end Zaion.Promotion
