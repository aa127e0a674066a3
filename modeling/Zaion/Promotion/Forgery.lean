import Zaion.Promotion.Verified

/-! What the signatures of a promotion file protect. The key signs a proposal; the hash of a
record and its link to the record before it are digests anyone can compute. So whoever holds a
file can put its records in any order, leave some out and repeat others. -/
namespace Zaion.Promotion

open Lib

variable {host : Host} {records : Records} {record : SignedPromotionRecord} {p q : PromotionProposal}
  {keypair : Keypair} {call : Call}

section Encoding

theorem level_injective : Function.Injective fun level : UInt8 => Json.nat level.toNat := by
  intro a b same
  simpa [Json.nat,← UInt8.toNat_inj] using same

theorem PromotionModule.text_injective : Function.Injective PromotionModule.text := by
  intro a b same
  cases a <;> cases b <;> simp_all [text]

theorem PromotionStatus.text_injective : Function.Injective PromotionStatus.text := by
  intro a b same
  cases a <;> cases b <;> simp_all [text]

theorem EvidenceKind.text_injective : Function.Injective EvidenceKind.text := by
  intro a b same
  cases a <;> cases b <;> simp_all [text]

theorem EvidenceHash.toJson_injective : Function.Injective EvidenceHash.toJson := by
  rintro ⟨kind, path, digest, description⟩ ⟨kind', path', digest', description'⟩ same
  simp only [toJson,Json.obj.injEq,List.cons.injEq,Prod.mk.injEq,Json.str.injEq,true_and,and_true] at same
  obtain ⟨kinds, rfl, rfl, rfl⟩ := same
  rw [EvidenceKind.text_injective kinds]

theorem RollbackPlan.toJson_injective : Function.Injective RollbackPlan.toJson := by
  rintro ⟨strategy, flag, event, commands, steps⟩ ⟨strategy', flag', event', commands', steps'⟩ same
  simp only [toJson,Json.obj.injEq,List.cons.injEq,Prod.mk.injEq,Json.str.injEq,Json.arr.injEq,true_and,
    and_true] at same
  obtain ⟨rfl, flags, events, commands, steps⟩ := same
  have texts := Json.ofOption_injective Json.str_injective fun _ => Json.noConfusion
  rw [texts flags,texts events,List.map_injective_iff.mpr Json.str_injective commands,
    List.map_injective_iff.mpr Json.str_injective steps]

theorem ProbationMetadata.toJson_injective : Function.Injective ProbationMetadata.toJson := by
  rintro ⟨active, record, target, needed, observed, started, level, reason⟩
    ⟨active', record', target', needed', observed', started', level', reason'⟩ same
  simp only [toJson,Json.obj.injEq,List.cons.injEq,Prod.mk.injEq,Json.str.injEq,Json.bool.injEq,Json.nat,
    Json.num.injEq,JsonNumber.posInt.injEq,UInt64.toNat_inj,true_and,and_true] at same
  obtain ⟨rfl, rfl, rfl, rfl, rfl, rfl, levels, reasons⟩ := same
  rw [Json.ofOption_injective level_injective (fun _ => Json.noConfusion) levels,
    Json.ofOption_injective Json.str_injective (fun _ => Json.noConfusion) reasons]

theorem PromotionProposal.toJson_injective : Function.Injective PromotionProposal.toJson := by
  rintro ⟨version, proposalId, module, status, change, risk, evidence, plan, probation, blockers, created,
    principal⟩ ⟨version', proposalId', module', status', change', risk', evidence', plan', probation',
    blockers', created', principal'⟩ same
  simp only [toJson,Json.obj.injEq,List.cons.injEq,Prod.mk.injEq,Json.str.injEq,Json.arr.injEq,Json.nat,
    Json.num.injEq,JsonNumber.posInt.injEq,UInt8.toNat_inj,true_and,and_true] at same
  obtain ⟨rfl, rfl, modules, statuses, rfl, rfl, evidences, plans, probations, texts, rfl, rfl⟩ := same
  rw [PromotionModule.text_injective modules,PromotionStatus.text_injective statuses,
    List.map_injective_iff.mpr EvidenceHash.toJson_injective evidences,
    Json.ofOption_injective RollbackPlan.toJson_injective (fun _ => Json.noConfusion) plans,
    Json.ofOption_injective ProbationMetadata.toJson_injective (fun _ => Json.noConfusion) probations,
    List.map_injective_iff.mpr Json.str_injective texts]

theorem nat_exact (n : Nat) : (Json.nat n).exact = decide (n < 18446744073709551616) := rfl

theorem nat_depth (n : Nat) : (Json.nat n).depth = 0 := rfl

theorem texts_depth (texts : List String) : (Json.arr (texts.map .str)).depth ≤ 1 := by
  have flat : Json.depthItems (texts.map .str) ≤ 0 := by
    rw [Json.depthItems_le_iff]
    simp [Json.depth]
  rw [Json.depth]
  omega

theorem RollbackPlan.toJson_plain (plan : RollbackPlan) : plan.toJson.exact = true ∧ plan.toJson.depth ≤ 2 := by
  constructor
  · simp [toJson,Json.exact,Json.exactFields,Json.exactItems_iff,Json.ofOption_str_plain]
  · have commands := texts_depth plan.verificationCommands
    have steps := texts_depth plan.manualSteps
    simp only [toJson,Json.depth,Json.depthFields,Json.ofOption_str_plain] at commands steps ⊢
    omega

theorem ProbationMetadata.toJson_plain (probation : ProbationMetadata) :
    probation.toJson.exact = true ∧ probation.toJson.depth ≤ 2 := by
  have level : (Json.ofOption (fun level : UInt8 => .nat level.toNat) probation.anomalyLevel).exact = true ∧
      (Json.ofOption (fun level : UInt8 => .nat level.toNat) probation.anomalyLevel).depth = 0 := by
    cases probation.anomalyLevel with
    | none => simp [Json.ofOption,Json.exact,Json.depth]
    | some level =>
      have small := level.toNat_lt
      simp only [Json.ofOption,nat_exact,nat_depth,decide_eq_true_eq,and_true]
      omega
  have needed := probation.requiredObservationTurns.toNat_lt
  have observed := probation.observedTurns.toNat_lt
  constructor
  · simp only [toJson,Json.exact,Json.exactFields,nat_exact,Json.ofOption_str_plain,level]
    simp
    omega
  · simp only [toJson,Json.depth,Json.depthFields,nat_depth,Json.ofOption_str_plain,level]
    omega

/-- Proposals print to JSON text that parses back. -/
theorem PromotionProposal.toJson_plain (p : PromotionProposal) : p.toJson.plain = true := by
  have plan : (Json.ofOption RollbackPlan.toJson p.rollbackPlan).exact = true ∧
      (Json.ofOption RollbackPlan.toJson p.rollbackPlan).depth ≤ 2 := by
    cases p.rollbackPlan with
    | none => simp [Json.ofOption,Json.exact,Json.depth]
    | some plan => exact plan.toJson_plain
  have probation : (Json.ofOption ProbationMetadata.toJson p.probation).exact = true ∧
      (Json.ofOption ProbationMetadata.toJson p.probation).depth ≤ 2 := by
    cases p.probation with
    | none => simp [Json.ofOption,Json.exact,Json.depth]
    | some probation => exact probation.toJson_plain
  have version := p.schemaVersion.toNat_lt
  have evidence : Json.depthItems (p.evidenceHashes.map EvidenceHash.toJson) ≤ 1 := by
    simp [Json.depthItems_le_iff,EvidenceHash.toJson,Json.depth,Json.depthFields]
  have blockers := texts_depth p.remainingBlockers
  simp only [Json.plain,Bool.and_eq_true,decide_eq_true_eq]
  constructor
  · simp [toJson,Json.exact,Json.exactFields,Json.exactItems_iff,nat_exact,plan,probation,
      EvidenceHash.toJson]
    omega
  · simp only [toJson,Json.depth,Json.depthFields,nat_depth] at blockers ⊢
    omega

theorem canonicalProposalBytes_injective (reads : host.ReadsBack) :
    Function.Injective (canonicalProposalBytes host) := by
  intro p q same
  have texts : host.toText p.toJson = host.toText q.toJson := toByteArray_toList_injective same
  have parsed := reads p.toJson p.toJson_plain
  rw [texts,reads q.toJson q.toJson_plain] at parsed
  exact (PromotionProposal.toJson_injective (Option.some.inj parsed)).symm

end Encoding

/-- Everything a key has signed in the records. -/
def signedBytes (host : Host) (records : Records) : List (List UInt8) :=
  records.map fun r => canonicalProposalBytes host r.proposal

/-- Signatures as the set of messages the holder signed: no other message verifies under the key. -/
def Unforgeable (host : Host) (keypair : Keypair) (records : Records) : Prop :=
  ∀ message signature, host.verifySignature keypair.publicKey message signature = true ↔
    message ∈ signedBytes host records ∧ signature = host.sign keypair message

/-- A file that verifies, all of it under one key. -/
structure Accepted (host : Host) (keypair : Keypair) (file : Records) : Prop where
  verifies : Verifies host file
  signer : ∀ r ∈ file, r.signature.publicKey = keypair.publicKey

/-- The same proposals and signatures, linked anew from `previous` on. No key is needed. -/
def relink (host : Host) : Option String → Records → Records
  | _, [] => []
  | previous, r :: rest =>
    let linked := SignedPromotionRecord.sealed host { r with prevRecordHash := previous }
    linked :: relink host (some linked.recordHash) rest

/-- What `verify` asks of a record besides its own hash. -/
structure Authentic (host : Host) (record : SignedPromotionRecord) : Prop where
  gate : record.proposal.validateGate = .ok ()
  scheme : record.signature.scheme = signatureScheme
  principal : host.principalOf record.signature.publicKey = record.proposal.principalId
  content : host.sha256Hex (canonicalProposalBytes host record.proposal) = record.signature.contentHash
  signature : host.verifySignature record.signature.publicKey (canonicalProposalBytes host record.proposal)
    record.signature.signature = true

theorem Authentic.linked (authentic : Authentic host record) (previous : Option String) :
    Valid host (SignedPromotionRecord.sealed host { record with prevRecordHash := previous }) := by
  obtain ⟨gate, scheme, principal, content, signature⟩ := authentic
  exact ⟨gate, scheme, principal, content, signature, rfl⟩

/-- Authentic records verify in whatever order they are linked. -/
theorem relink_verifies (previous : Option String) (authentic : ∀ r ∈ records, Authentic host r) :
    ∃ verified, verifyFrom host previous (relink host previous records) = .ok verified ∧
      verified.map (fun v => (v.proposalId, v.status)) =
        records.map fun r => (r.proposal.proposalId, r.proposal.status) := by
  induction records generalizing previous with
  | nil => exact ⟨[], rfl, rfl⟩
  | cons r rest ih =>
    obtain ⟨verified, later, same⟩ := ih
      (some (SignedPromotionRecord.sealed host { r with prevRecordHash := previous }).recordHash)
      fun other member => authentic other (List.mem_cons_of_mem _ member)
    obtain ⟨result, holds⟩ := verify_ok_iff.mpr ((authentic r List.mem_cons_self).linked previous)
    have told : (result.proposalId, result.status) = (r.proposal.proposalId, r.proposal.status) := by
      simp only [SignedPromotionRecord.verify,bind_ok_iff,Except.ok.injEq] at holds
      obtain ⟨_, _, _, _, _, _, _, _, _, _, _, _, rfl⟩ := holds
      rfl
    refine ⟨result :: verified, ?_, by rw [List.map_cons,List.map_cons,told,same]⟩
    rw [relink,verifyFrom]
    simp only [bind_ok_iff]
    exact ⟨(), ensure_of rfl, result, holds, verified, later, rfl⟩

theorem relink_length (previous : Option String) : (relink host previous records).length = records.length := by
  induction records generalizing previous with
  | nil => rfl
  | cons r rest ih => rw [relink,List.length_cons,ih,List.length_cons]

theorem relink_signer {previous : Option String}
    (signer : ∀ r ∈ records, r.signature.publicKey = keypair.publicKey) :
    ∀ r ∈ relink host previous records, r.signature.publicKey = keypair.publicKey := by
  induction records generalizing previous with
  | nil => exact fun r member => by cases member
  | cons r rest ih =>
    intro other member
    rcases List.mem_cons.mp member with rfl | member
    · exact signer r List.mem_cons_self
    · exact ih (fun other member => signer other (List.mem_cons_of_mem _ member)) other member

/-- The record carries the key's signature of its proposal. -/
structure SignedBy (host : Host) (keypair : Keypair) (record : SignedPromotionRecord) : Prop where
  gate : record.proposal.validateGate = .ok ()
  signature : ∃ signedAt, record.signature = ⟨signatureScheme, keypair.publicKey,
    host.sign keypair (canonicalProposalBytes host record.proposal),
    host.sha256Hex (canonicalProposalBytes host record.proposal), signedAt⟩

theorem Signs.signedBy (signs : Signs host records keypair p record) : SignedBy host keypair record := by
  obtain ⟨signedAt, signed⟩ := signs
  simp only [SignedPromotionRecord.sign,bind_ok_iff,Except.ok.injEq] at signed
  obtain ⟨_, gated, rfl⟩ := signed
  exact ⟨gated, signedAt, rfl⟩

theorem Appended.signedBy {new : Records} (appended : Appended host records call new) :
    ∀ r ∈ new, SignedBy host call.keypair r := by
  cases appended with
  | signed _ first | readied _ _ first | rolledBack _ _ first | autoRolledBack _ _ first
  | confirmed _ _ first =>
    intro r member
    obtain rfl := List.mem_singleton.mp member
    exact first.signedBy
  | promoted _ _ first second | readiedRolledBack _ _ _ first second =>
    intro r member
    rcases List.mem_cons.mp member with rfl | member
    · exact first.signedBy
    · obtain rfl := List.mem_singleton.mp member
      exact second.signedBy

theorem perform_signedBy (gated : Gated records) (before : ∀ r ∈ records, SignedBy host call.keypair r) :
    ∀ r ∈ (call.perform host records).2, SignedBy host call.keypair r := by
  have performed : Performed host records call (call.perform host records) := perform_cases gated call
  revert performed
  generalize call.perform host records = outcome
  intro performed
  cases performed with
  | failed => exact before
  | succeeded appended =>
    intro r member
    rcases List.mem_append.mp member with old | new
    · exact before r old
    · exact appended.signedBy r new

theorem run_signedBy (gated : Gated records) (before : ∀ r ∈ records, SignedBy host keypair r)
    {calls : List Call} (own : ∀ call ∈ calls, call.keypair = keypair) :
    ∀ r ∈ run host calls records, SignedBy host keypair r := by
  induction calls generalizing records with
  | nil => exact before
  | cons call calls ih =>
    obtain rfl := own call List.mem_cons_self
    exact ih (gated.perform call) (perform_signedBy gated before) fun other member =>
      own other (List.mem_cons_of_mem _ member)

theorem SignedBy.authentic (signedBy : SignedBy host keypair record)
    (ideal : Unforgeable host keypair records) (member : record ∈ records)
    (own : record.proposal.principalId = host.principalOf keypair.publicKey) : Authentic host record := by
  obtain ⟨signedAt, same⟩ := signedBy.signature
  refine ⟨signedBy.gate, by rw [same], by rw [same,own], by rw [same], ?_⟩
  rw [same]
  exact (ideal _ _).mpr ⟨List.mem_map_of_mem member, rfl⟩

/-- Every file that verifies under the holder's key is a beginning of the holder's own. -/
def Authenticated (host : Host) (keypair : Keypair) (records : Records) : Prop :=
  ∀ file, Accepted host keypair file → file <+: records

/-- A host on which the sample key has signed the records and nothing else. -/
def idealHost (records : Records) : Host :=
  { sampleHost with verifySignature := (fun key message signature =>
      decide (message ∈ signedBytes sampleHost records ∧ signature = key ++ message)) }

theorem idealHost_unforgeable (records : Records) :
    Unforgeable (idealHost records) sampleKeypair records := fun _ _ => decide_eq_true_iff

theorem idealHost_readsBack (records : Records) : (idealHost records).ReadsBack := sampleHost_readsBack

theorem idealHost_collisionFree (records : Records) : (idealHost records).CollisionFree :=
  sampleHost_collisionFree

/-- Only `append_confirmed_stable` looks at signatures. -/
theorem perform_idealHost (signed : Records) (op : Op)
    (unconfirmed : ∀ id turns, op ≠ .appendConfirmedStable id turns) (records : Records) :
    (sampleCall op).perform (idealHost signed) records = (sampleCall op).perform sampleHost records := by
  cases op with
  | appendConfirmedStable id turns => exact absurd rfl (unconfirmed id turns)
  | appendSigned | appendRollbackReady | appendPromoted | appendRolledBack | appendProbationAutoRollback => rfl

theorem rollbackRecords_ideal (signed : Records) : run (idealHost signed) rollbackCalls [] = rollbackRecords := by
  rw [rollbackRecords,rollbackCalls]
  simp only [run,List.map_cons,List.map_nil,List.foldl_cons,List.foldl_nil]
  rw [perform_idealHost signed _ (by simp),perform_idealHost signed _ (by simp),
    perform_idealHost signed _ (by simp),perform_idealHost signed _ (by simp)]

def foreignCalls : List Call := [sampleCall (.appendSigned (sampleProposal "zaion1mallory"))]

/-- The rolled back history with its probation record once more. -/
def repeatedProbation : Records := rollbackRecords ++ (rollbackRecords.drop 3).take 1

theorem repeatedProbation_latest :
    (repeatedProbation.map fun r => (r.proposal.proposalId, r.proposal.status)).getLast? =
      some ("promo-opd-001", .probation) := by
  rw [repeatedProbation,List.map_append,List.map_take,List.map_drop,rollbackRecords_states]
  rfl

theorem repeatedProbation_authentic : ∀ r ∈ repeatedProbation,
    Authentic (idealHost rollbackRecords) r ∧ r.signature.publicKey = sampleKeypair.publicKey := by
  intro r member
  have there : r ∈ rollbackRecords := by
    rcases List.mem_append.mp member with first | again
    · exact first
    · exact List.mem_of_mem_drop (List.mem_of_mem_take again)
  have signed : ∀ r ∈ run (idealHost rollbackRecords) rollbackCalls [],
      SignedBy (idealHost rollbackRecords) sampleKeypair r := by
    apply run_signedBy gated_nil
    · exact fun _ member => by cases member
    · intro call member
      obtain ⟨op, _, rfl⟩ := List.mem_map.mp member
      rfl
  rw [rollbackRecords_ideal] at signed
  obtain ⟨_, same⟩ := (signed r there).signature
  exact ⟨(signed r there).authentic (idealHost_unforgeable _) there (rollbackRecords_principal r there),
    by rw [same]⟩

end Zaion.Promotion
