import Zaion.Lib.Trace
import Zaion.Promotion.Verified
import Mathlib.Data.List.DropRight

/-! Whether a rollback is final. `append_promoted` looks for a proposal and for a rollback-ready
record anywhere in the file; the order of the records matters only for what the law says of them. -/
namespace Zaion.Promotion

open Lib

/-- Whether the proposal was put on, or confirmed in, stable use. -/
def PromotionStatus.inUse : PromotionStatus → Bool
  | .promoted | .probation | .confirmedStable => true
  | _ => false

def ProbationMetadata.withoutAnomaly (probation : ProbationMetadata) : Prop :=
  probation.anomalyLevel = none ∧ probation.anomalyReason = none

/-- What the law asks of a record, given the records before it. -/
structure LawfulNext (before : Records) (r : SignedPromotionRecord) : Prop where
  /-- After a rollback, use needs a new proposal. -/
  rolledBack : r.proposal.status.inUse = true → ∀ first rolled rest, before = first ++ rolled :: rest →
    rolled.isOf r.proposal.proposalId .rolledBack → ∃ q ∈ rest, q.isOf r.proposal.proposalId .proposed
  /-- A promotion needs a rollback-ready record after the latest proposal. -/
  promoted : r.proposal.status = .promoted → ∃ first q rest, before = first ++ q :: rest ∧
    q.isOf r.proposal.proposalId .proposed ∧ (∀ x ∈ rest, ¬ x.isOf r.proposal.proposalId .proposed) ∧
      ∃ ready ∈ rest, ready.isOf r.proposal.proposalId .rollbackReady
  /-- A confirmation directly follows a probation that went well. -/
  confirmed : r.proposal.status = .confirmedStable → ∃ first q probation, before = first ++ [q] ∧
    q.isOf r.proposal.proposalId .probation ∧ q.proposal.probation = some probation ∧
      probation.withoutAnomaly

def Lawful (records : Records) : Prop := Justified LawfulNext records

/-- The records after the latest proposal of the id. -/
def sinceProposed (proposalId : String) (records : Records) : Records :=
  records.rtakeWhile fun r => !r.isOf proposalId .proposed

/-- The proposal as it stands is ready and not rolled back. -/
def Current (proposalId : String) (records : Records) : Prop :=
  (sinceProposed proposalId records).any (·.isOf proposalId .rollbackReady) ∧
    ¬ (sinceProposed proposalId records).any (·.isOf proposalId .rolledBack)

instance : Decidable (Current proposalId records) := inferInstanceAs (Decidable (_ ∧ _))

/-- `append_promoted` goes through only for a proposal that is current. -/
def Timely (call : Call) (records : Records) : Prop :=
  ∀ proposalId p, call.op = .appendPromoted proposalId →
    transitionSource records proposalId .promoted = .ok p → Current proposalId records

variable {host : Host} {records : Records} {record r : SignedPromotionRecord} {p : PromotionProposal}
  {keypair : Keypair} {call : Call} {proposalId : String}

theorem mem_takeWhile_iff {α : Type} {test : α → Bool} {l : List α} {a : α} :
    a ∈ l.takeWhile test ↔ ∃ first rest, l = first ++ a :: rest ∧ (∀ x ∈ first, test x) ∧ test a := by
  induction l with
  | nil => simp
  | cons b l ih =>
    cases passes : test b with
    | false =>
      simp only [List.takeWhile_cons,passes,Bool.false_eq_true,if_false,List.not_mem_nil,false_iff]
      rintro ⟨first, rest, split, before, holds⟩
      cases first with
      | nil =>
        cases split
        rw [passes] at holds
        cases holds
      | cons c first =>
        cases split
        have held := before b List.mem_cons_self
        rw [passes] at held
        cases held
    | true =>
      simp only [List.takeWhile_cons,passes,if_true,List.mem_cons,ih]
      constructor
      · rintro (rfl | ⟨first, rest, rfl, before, holds⟩)
        · exact ⟨[], l, rfl, by simp, passes⟩
        · exact ⟨b :: first, rest, rfl, by simpa [passes] using before, holds⟩
      · rintro ⟨first, rest, split, before, holds⟩
        cases first with
        | nil =>
          cases split
          exact .inl rfl
        | cons c first =>
          cases split
          exact .inr ⟨first, rest, rfl, fun x member => before x (List.mem_cons_of_mem _ member), holds⟩

/-- A record stands after the latest proposal when none follows it and it is none. -/
theorem mem_sinceProposed : r ∈ sinceProposed proposalId records ↔ ∃ first rest, records = first ++ r :: rest ∧
    ¬ r.isOf proposalId .proposed ∧ ∀ x ∈ rest, ¬ x.isOf proposalId .proposed := by
  rw [sinceProposed,List.rtakeWhile,List.mem_reverse,mem_takeWhile_iff]
  constructor
  · rintro ⟨first, rest, split, before, holds⟩
    refine ⟨rest.reverse, first.reverse, ?_, by simpa using holds, fun x member => ?_⟩
    · have back := congrArg List.reverse split
      simpa using back
    · simpa using before x (List.mem_reverse.mp member)
  · rintro ⟨first, rest, rfl, holds, after⟩
    refine ⟨rest.reverse, first.reverse, by simp, fun x member => ?_, by simpa using holds⟩
    simpa using after x (List.mem_reverse.mp member)

theorem sinceProposed_split (proposed : ∃ q ∈ records, q.isOf proposalId .proposed) :
    ∃ first q, records = first ++ q :: sinceProposed proposalId records ∧ q.isOf proposalId .proposed := by
  have whole : records.rdropWhile (fun r => !r.isOf proposalId .proposed) ++ sinceProposed proposalId records =
      records := List.rdropWhile_append_rtakeWhile
  by_cases nothing : records.rdropWhile (fun r => !r.isOf proposalId .proposed) = []
  · obtain ⟨q, member, named⟩ := proposed
    have none := List.rdropWhile_eq_nil_iff.mp nothing q member
    simp [named] at none
  · have stops := List.rdropWhile_last_not _ records nothing
    refine ⟨(records.rdropWhile fun r => !r.isOf proposalId .proposed).dropLast, _, ?_, by simpa using stops⟩
    rw [List.append_cons,List.dropLast_append_getLast nothing]
    exact whole.symm

/-- No rollback since the latest proposal: every rollback has a proposal after it. -/
theorem reproposed_iff : ¬ (sinceProposed proposalId records).any (·.isOf proposalId .rolledBack) ↔
    ∀ first rolled rest, records = first ++ rolled :: rest → rolled.isOf proposalId .rolledBack →
      ∃ q ∈ rest, q.isOf proposalId .proposed := by
  simp only [List.any_eq_true,not_exists,not_and]
  constructor
  · intro none first rolled rest split named
    by_contra missing
    refine none rolled (mem_sinceProposed.mpr ⟨first, rest, split, ?_, ?_⟩) named
    · intro proposed
      simp only [SignedPromotionRecord.isOf,decide_eq_true_eq] at named proposed
      rw [named.2] at proposed
      cases proposed.2
    · exact fun x member proposed => missing ⟨x, member, proposed⟩
  · intro every rolled member named
    obtain ⟨first, rest, split, _, none⟩ := mem_sinceProposed.mp member
    obtain ⟨q, there, proposed⟩ := every first rolled rest split named
    exact none q there proposed

/-- Being current is what the law asks before a promotion. -/
theorem current_iff (proposed : ∃ q ∈ records, q.isOf proposalId .proposed) :
    Current proposalId records ↔
      (∃ first q rest, records = first ++ q :: rest ∧ q.isOf proposalId .proposed ∧
        (∀ x ∈ rest, ¬ x.isOf proposalId .proposed) ∧ ∃ ready ∈ rest, ready.isOf proposalId .rollbackReady) ∧
      ∀ first rolled rest, records = first ++ rolled :: rest → rolled.isOf proposalId .rolledBack →
        ∃ q ∈ rest, q.isOf proposalId .proposed := by
  rw [Current,reproposed_iff]
  refine and_congr_left fun _ => ?_
  constructor
  · intro ready
    obtain ⟨first, q, split, named⟩ := sinceProposed_split proposed
    refine ⟨first, q, _, split, named, fun x member => ?_, List.any_eq_true.mp ready⟩
    obtain ⟨_, _, _, other, _⟩ := mem_sinceProposed.mp member
    exact other
  · rintro ⟨first, q, rest, rfl, named, none, ready, member, isReady⟩
    obtain ⟨before, after, rfl⟩ := List.append_of_mem member
    refine List.any_eq_true.mpr ⟨ready, mem_sinceProposed.mpr ⟨first ++ q :: before, after, by simp, ?_, ?_⟩,
      isReady⟩
    · exact none ready member
    · exact fun x there => none x (by simp [there])

theorem Lawful.snoc_iff : Lawful (records ++ [r]) ↔ Lawful records ∧ LawfulNext records r := by
  constructor
  · intro lawful
    constructor
    · intro before next after split
      exact lawful before next (after ++ [r]) (by rw [split,List.append_assoc,List.cons_append])
    · exact lawful records r [] rfl
  · rintro ⟨lawful, next⟩
    exact Justified.snoc lawful next

/-- Proposals and rollbacks are lawful wherever they stand. -/
theorem LawfulNext.unused (unused : r.proposal.status.inUse = false) : LawfulNext records r := by
  constructor
  · intro used
    rw [unused] at used
    cases used
  · intro promoted
    rw [promoted] at unused
    cases unused
  · intro confirmed
    rw [confirmed] at unused
    cases unused

theorem Signs.status (signs : Signs host records keypair p record) : record.proposal.status = p.status := by
  rw [signs.proposal]

theorem Signs.unused (signs : Signs host records keypair p record) (unused : p.status.inUse = false) :
    Lawful (records ++ [record]) ↔ Lawful records := by
  rw [Lawful.snoc_iff]
  have next : LawfulNext records record := .unused (by rw [signs.status,unused])
  exact ⟨fun both => both.1, fun lawful => ⟨lawful, next⟩⟩

theorem isOf_iff {status : PromotionStatus} : r.isOf proposalId status = true ↔
    r.proposal.proposalId = proposalId ∧ r.proposal.status = status := by
  simp [SignedPromotionRecord.isOf]

theorem promoted_next (named : record.proposal.proposalId = proposalId)
    (status : record.proposal.status = .promoted) (proposed : ∃ q ∈ records, q.isOf proposalId .proposed) :
    LawfulNext records record ↔ Current proposalId records := by
  rw [current_iff proposed]
  subst named
  constructor
  · exact fun next => ⟨next.promoted status, next.rolledBack (by rw [status]; rfl)⟩
  · rintro ⟨ready, reproposed⟩
    refine ⟨fun _ => reproposed, fun _ => ready, fun confirmed => ?_⟩
    rw [status] at confirmed
    cases confirmed

/-- A record that follows one in use, for the same proposal, inherits its standing. -/
theorem rolledBack_follows {previous : SignedPromotionRecord} (next : LawfulNext records previous)
    (used : previous.proposal.status.inUse = true) :
    ∀ first rolled rest, records ++ [previous] = first ++ rolled :: rest →
      rolled.isOf previous.proposal.proposalId .rolledBack →
        ∃ q ∈ rest, q.isOf previous.proposal.proposalId .proposed := by
  intro first rolled rest split named
  rcases List.append_eq_append_iff.mp split with ⟨more, rfl, tail⟩ | ⟨more, rfl, tail⟩
  · cases more with
    | nil =>
      cases tail
      rw [(isOf_iff.mp named).2] at used
      cases used
    | cons other more => simp at tail
  · cases more with
    | nil =>
      cases tail
      rw [(isOf_iff.mp named).2] at used
      cases used
    | cons other more =>
      cases tail
      obtain ⟨q, member, proposed⟩ := next.rolledBack used first rolled more rfl named
      exact ⟨q, List.mem_append_left _ member, proposed⟩

theorem probation_next {previous : SignedPromotionRecord} (next : LawfulNext records previous)
    (status : previous.proposal.status = .promoted) (same : r.proposal.proposalId = previous.proposal.proposalId)
    (probation : r.proposal.status = .probation) : LawfulNext (records ++ [previous]) r := by
  constructor
  · intro _
    rw [same]
    exact rolledBack_follows next (by rw [status]; rfl)
  · intro promoted
    rw [probation] at promoted
    cases promoted
  · intro confirmed
    rw [probation] at confirmed
    cases confirmed

theorem confirmed_next {previous : SignedPromotionRecord} {probation : ProbationMetadata}
    (lawful : Lawful records) (last : records.getLast? = some previous)
    (named : previous.isOf proposalId .probation) (metadata : previous.proposal.probation = some probation)
    (well : probation.withoutAnomaly) (same : r.proposal.proposalId = proposalId)
    (confirmed : r.proposal.status = .confirmedStable) : LawfulNext records r := by
  obtain ⟨before, rfl⟩ := List.getLast?_eq_some_iff.mp last
  have next := lawful before previous [] rfl
  obtain ⟨rfl, status⟩ := isOf_iff.mp named
  constructor
  · intro _
    rw [same]
    exact rolledBack_follows next (by rw [status]; rfl)
  · intro promoted
    rw [confirmed] at promoted
    cases promoted
  · intro _
    rw [same]
    exact ⟨before, previous, probation, rfl, named, metadata, well⟩

theorem Appended.lawful_iff {new : Records} (appended : Appended host records call new)
    (proposing : ∀ p, call.op = .appendSigned p → p.status = .proposed) :
    Lawful (records ++ new) ↔ Lawful records ∧ Timely call records := by
  cases appended with
  | signed op first =>
    have timely : Timely call records := fun _ _ op' => by cases op.symm.trans op'
    rw [first.unused (by rw [proposing _ op]; rfl)]
    exact ⟨fun lawful => ⟨lawful, timely⟩, fun both => both.1⟩
  | readied op _ first | rolledBack op _ first | autoRolledBack op _ first =>
    have timely : Timely call records := fun _ _ op' => by cases op.symm.trans op'
    rw [first.unused rfl]
    exact ⟨fun lawful => ⟨lawful, timely⟩, fun both => both.1⟩
  | readiedRolledBack op _ _ first second =>
    have timely : Timely call records := fun _ _ op' => by cases op.symm.trans op'
    rw [List.append_cons,second.unused rfl,first.unused rfl]
    exact ⟨fun lawful => ⟨lawful, timely⟩, fun both => both.1⟩
  | confirmed op source first =>
    have timely : Timely call records := fun _ _ op' => by cases op.symm.trans op'
    obtain ⟨last, named, probation, metadata, well⟩ := confirmSource_ok source
    rw [Lawful.snoc_iff]
    refine ⟨fun both => ⟨both.1, timely⟩, fun both => ⟨both.1, ?_⟩⟩
    apply confirmed_next both.1 last named metadata well
    · rw [first.proposal]
      exact (isOf_iff.mp named).1
    · exact first.status
  | promoted op source first second =>
    obtain ⟨q, member, rfl, named, status⟩ := transitionSource_proposed source
    have next : LawfulNext records _ ↔ Current _ records := promoted_next
      (by rw [first.proposal]; exact named) first.status ⟨q, member, isOf_iff.mpr ⟨named, status⟩⟩
    rw [List.append_cons,Lawful.snoc_iff,Lawful.snoc_iff,next]
    constructor
    · rintro ⟨⟨lawful, current⟩, _⟩
      refine ⟨lawful, fun id p op' _ => ?_⟩
      cases op.symm.trans op'
      exact current
    · rintro ⟨lawful, timely⟩
      have current := timely _ _ op source
      refine ⟨⟨lawful, current⟩, probation_next (next.mpr current) first.status ?_ second.status⟩
      rw [second.proposal]
      rfl

theorem promoted_gate (gated : p.validateGate = .ok ()) (status : p.status = .proposed)
    (approved : p.hasEvidence .ownerApproval) (principal createdAt : String) :
    (p.transitioned .promoted principal createdAt).validateGate = .ok () := by
  apply validateGate_moved gated (by simp [status])
  · exact fun formed => formed.of_fields rfl rfl rfl rfl rfl rfl
  · rfl
  · have kept : (p.transitioned .promoted principal createdAt).hasEvidence .ownerApproval := approved
    rw [PromotionProposal.transitioned] at kept ⊢
    simp [PromotionProposal.validateStatus,kept]

/-- A call of `append_promoted` that passes its checks succeeds. -/
theorem timely_of_failed {e : EvolveError} (gated : Gated records)
    (failed : (call.perform host records).1 = .error e) : Timely call records := by
  intro proposalId p op source
  obtain ⟨q, member, rfl, named, status⟩ := transitionSource_proposed source
  have approved : q.proposal.hasEvidence .ownerApproval := by
    simp only [transitionSource,transitionGuard,bind_ok_iff,ensure_ok_iff,required_ok_iff,exists_const,
      Except.ok.injEq] at source
    obtain ⟨q', _, ⟨approved, _⟩, same⟩ := source
    rwa [same] at approved
  obtain ⟨op', keypair, clock⟩ := call
  cases op
  obtain ⟨promoted, signs, first⟩ := appendTransition_ok source
    (promoted_gate (gated q member) status approved (host.principalOf keypair.publicKey) (clock 0))
  obtain ⟨record, _, done⟩ := appendPromoted_ok signs first
  rw [Call.perform] at failed
  simp only [done] at failed
  cases failed

theorem perform_lawful (gated : Gated records)
    (proposing : ∀ p, call.op = .appendSigned p → p.status = .proposed) :
    Lawful (call.perform host records).2 ↔ Lawful records ∧ Timely call records := by
  have performed : Performed host records call (call.perform host records) := perform_cases gated call
  have failed := @timely_of_failed host records call
  revert performed failed
  generalize call.perform host records = outcome
  intro performed failed
  cases performed with
  | failed => exact ⟨fun lawful => ⟨lawful, failed gated rfl⟩, fun both => both.1⟩
  | succeeded appended => exact appended.lawful_iff proposing

/-- Every step of the run is timely in the file it finds. -/
def AllTimely (host : Host) : Records → List Call → Prop
  | _, [] => True
  | records, call :: calls => Timely call records ∧ AllTimely host (call.perform host records).2 calls

theorem run_lawful (gated : Gated records) {calls : List Call}
    (proposing : ∀ call ∈ calls, ∀ p, call.op = .appendSigned p → p.status = .proposed) :
    Lawful (run host calls records) ↔ Lawful records ∧ AllTimely host records calls := by
  induction calls generalizing records with
  | nil => simp [run,AllTimely]
  | cons call calls ih =>
    have later : Gated (call.perform host records).2 := gated.perform call
    have rest := ih later fun other member => proposing other (List.mem_cons_of_mem _ member)
    rw [run] at rest
    rw [run,List.foldl_cons,rest,perform_lawful gated (proposing call List.mem_cons_self),AllTimely,and_assoc]

/-- A rollback is final, and the other laws hold, in the files of a run exactly when every
promotion of it was of a proposal that stood ready and not rolled back. -/
theorem rollback_final_iff (host : Host) (calls : List Call)
    (proposing : ∀ call ∈ calls, ∀ p, call.op = .appendSigned p → p.status = .proposed) :
    Lawful (run host calls []) ↔ AllTimely host [] calls := by
  rw [run_lawful gated_nil proposing]
  exact ⟨fun both => both.2, fun timely => ⟨Justified.nil, timely⟩⟩

theorem rollback_final_in_order : Lawful (run sampleHost rollbackCalls []) := by
  apply (rollback_final_iff sampleHost rollbackCalls _).mpr
  · simp only [rollbackCalls,List.map_cons,List.map_nil,AllTimely]
    refine ⟨?_, ?_, ?_, ?_, trivial⟩
    · exact fun _ _ op => by cases op
    · exact fun _ _ op => by cases op
    · intro _ _ op _
      cases op
      decide
    · exact fun _ _ op => by cases op
  · intro call member p op
    simp only [rollbackCalls,List.map_cons,List.map_nil,List.mem_cons,List.not_mem_nil,or_false] at member
    rcases member with rfl | rfl | rfl | rfl
    all_goals cases op
    rfl

/-- Promoting again what was rolled back goes through. -/
theorem promoted_after_rollback :
    ¬ Lawful (run sampleHost (rollbackCalls ++ [sampleCall (.appendPromoted "promo-opd-001")]) []) := by
  rw [run_snoc]
  intro lawful
  have timely := ((perform_lawful (gated_run _ _) (fun _ op => by cases op)).mp lawful).2
  have current := timely "promo-opd-001" ownProposal rfl (by decide)
  revert current
  decide

end Zaion.Promotion
