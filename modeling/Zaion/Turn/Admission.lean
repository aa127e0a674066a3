import Zaion.Sample
import Zaion.Turn.Writes

/-! Admission under an idempotency key: a key is used for one turn, and whoever presents it
again gets that turn or learns that the request is another one. -/
namespace Zaion.Turn

open Lib

variable {host : Host} {limits : Limits} {db db' : Database}

/-- Timestamps of actors are readable. -/
def Timed (actors : List ActorRow) : Prop :=
  ∀ a ∈ actors, (DateTime.ofMillis? a.createdAtMs).isSome = true ∧ (DateTime.ofMillis? a.updatedAtMs).isSome = true

theorem Timed.modify {actors : List ActorRow} {key : String × String} {f : ActorRow → ActorRow}
    (timed : Timed actors) (created : ∀ a, (f a).createdAtMs = a.createdAtMs)
    (updated : ∀ a, ∃ now : DateTime, (f a).updatedAtMs = now.millis) :
    Timed (Table.modify ActorRow.key key f actors) := by
  intro a member
  rcases Table.mem_modify.mp member with ⟨b, old, _, rfl⟩ | ⟨old, _⟩
  · obtain ⟨now, stamp⟩ := updated b
    refine ⟨?_, by simp [stamp]⟩
    rw [created]
    exact (timed b old).1
  · exact timed a old

theorem ActorRow.afterTransition_times (a : ActorRow) (row : TurnRow) (owner : String) (next : TurnState)
    (now : DateTime) : (a.afterTransition row owner next now).createdAtMs = a.createdAtMs ∧
      (a.afterTransition row owner next now).updatedAtMs = now.millis := by
  unfold ActorRow.afterTransition
  split <;> exact ⟨rfl, rfl⟩

theorem Timed.step (timed : Timed db.actors) (step : Step host limits db db') : Timed db'.actors := by
  cases step with
  | turn step =>
    cases step with
    | addActor actor now =>
      intro a member
      rcases List.mem_append.mp member with old | new
      · exact timed a old
      · rw [List.mem_singleton.mp new]
        simp [TurnActorIdentity.row]
    | admitRow turn owner now =>
      apply timed.modify
      · exact fun _ => rfl
      · exact fun _ => ⟨now, rfl⟩
    | advance row next _ _ owner now =>
      exact timed.modify (fun a => (a.afterTransition_times row owner next now).1)
        (fun a => ⟨now, (a.afterTransition_times row owner next now).2⟩)
    | clear row now =>
      apply timed.modify
      · exact fun _ => rfl
      · exact fun _ => ⟨now, rfl⟩
  | claim | renew | release | quarantine | deliver | repair | ledger | migrate => exact timed

theorem run_timed (host : Host) (path instanceId : String) (ops : List Op) :
    Timed (run host (Database.created path instanceId) ops).actors :=
  (Sound.created path instanceId).run_keeps (runWithin_unlimited host _ ops) (P := fun db => Timed db.actors)
    (fun timed step => timed.step step) (by simp [Timed,Database.created])

/-- The actor of a live turn reads back, leased up to the turn's deadline. -/
theorem requireActor_busy {record : DurableTurnRecord} {missing : TurnStoreError}
    (exclusive : Exclusive db.actors db.turns) (timed : Timed db.actors) (loaded : Loaded host db record)
    (live : record.state.isTerminal = false) :
    ∃ actor, requireActor db record.tenantId record.actorKey missing = .ok actor ∧
      actor.activeTurnId = some record.turnId ∧ actor.leaseUntil = some record.deadline := by
  have member := Table.mem_of_select loaded.found
  obtain ⟨a, inside, key, active⟩ := exclusive.live _ member live
  obtain ⟨tenant, _⟩ := Prod.mk.inj key
  have busy := exclusive.busy inside member tenant.symm active
  have found : Table.select ActorRow.key (record.tenantId, record.actorKey) db.actors = some a :=
    exclusive.actorKeys.select_iff.mpr ⟨inside, key⟩
  obtain ⟨created, hc⟩ := Option.isSome_iff_exists.mp (timed a inside).1
  obtain ⟨updated, hu⟩ := Option.isSome_iff_exists.mp (timed a inside).2
  have deadline := (materializeTurn_reads loaded.read).deadline
  have read : rowToActor a =
      .ok { a with leaseUntil := some record.deadline, createdAt := created, updatedAt := updated } := by
    simp [rowToActor,readActor,parseTimestampOption,parseTimestamp,busy.lease,deadline,hc,hu,Functor.map,
      Except.map,Except.mapError]
  exact ⟨_, requireActor_ok_iff.mpr ⟨a, found, read⟩, active, rfl⟩

/-- The request is the one the turn was admitted for. -/
structure SameRequest (host : Host) (t : TurnRow) (ingress : AuthenticatedIngress)
    (admission : DurableTurnAdmission) : Prop where
  actorKey : t.actorKey = admission.actor.actorKey
  requestHash : t.requestHash = host.sha256Text (host.toText admission.request)
  authorityHash : t.authorityHash = host.sha256Text (host.toText (ingress.toJson host))

section

variable {ingress : AuthenticatedIngress} {admission : DurableTurnAdmission} {now : DateTime} {t : TurnRow}
  {record : DurableTurnRecord}

/-- `begin_turn` under a key that is in use looks at the turn and at nothing else. -/
theorem beginTurn_known (exclusive : Exclusive db.actors db.turns) (member : t ∈ db.turns)
    (own : t.admission = (ingress.tenantId, ingress.idempotencyKey)) (read : materializeTurn host t = .ok record)
    (authority : actorMatches ingress admission.actor) :
    beginTurn host ingress admission now db = (do
      ensure (record.actorKey = admission.actor.actorKey ∧
        record.requestHash = host.sha256Text (host.toText admission.request) ∧
        record.authorityHash = host.sha256Text (host.toText (ingress.toJson host)))
        TurnStoreError.idempotencyConflict
      let result ← recoverDuplicateIfExpired host record now db
      .ok (result.1, .existing result.2)) := by
  have found : Table.select TurnRow.admission (ingress.tenantId, ingress.idempotencyKey) db.turns = some t :=
    exclusive.admissions.select_iff.mpr ⟨member, own⟩
  have lookup : loadByIdempotency host db ingress.tenantId ingress.idempotencyKey = .ok (some record) := by
    simp [loadByIdempotency,found,read]
  rw [beginTurn,ensure_of authority,ok_bind]
  simp only [lookup,ok_bind]
  rfl

theorem loaded_of_read (exclusive : Exclusive db.actors db.turns) (member : t ∈ db.turns)
    (read : materializeTurn host t = .ok record) : Loaded host db record ∧ record.toTurnRow = t := by
  have columns := (materializeTurn_reads read).columns
  subst columns
  exact ⟨⟨exclusive.turnKeys.select_mem member, read⟩, rfl⟩

theorem sameRequest_iff (columns : record.toTurnRow = t) :
    (record.actorKey = admission.actor.actorKey ∧
      record.requestHash = host.sha256Text (host.toText admission.request) ∧
      record.authorityHash = host.sha256Text (host.toText (ingress.toJson host))) ↔
      SameRequest host t ingress admission := by
  subst columns
  exact ⟨fun same => ⟨same.1, same.2.1, same.2.2⟩, fun same => ⟨same.actorKey, same.requestHash, same.authorityHash⟩⟩

theorem recoverDuplicate_returns (exclusive : Exclusive db.actors db.turns) (timed : Timed db.actors)
    (loaded : Loaded host db record) (idle : record.state.isTerminal = true ∨ now.millis < record.deadlineMs) :
    recoverDuplicateIfExpired host record now db = .ok (db, record) := by
  unfold recoverDuplicateIfExpired
  by_cases terminal : record.state.isTerminal = true
  · rw [if_pos terminal]
  · obtain ⟨actor, loads, active, lease⟩ :=
      requireActor_busy exclusive timed loaded (Bool.eq_false_iff.mpr terminal)
    have early : ¬ record.deadline ≤ now := by
      rw [DateTime.ofMillis_le_iff (materializeTurn_reads loaded.read).deadline]
      rcases idle with ended | early
      · exact absurd ended terminal
      · omega
    rw [if_neg terminal,loads,ok_bind,ensure_of active,ok_bind,if_neg]
    simpa [lease] using early

theorem recoverDuplicate_recovers (readsBack : host.ReadsBack) (sound : Sound host limits db)
    (timed : Timed db.actors) (loaded : Loaded host db record) (live : record.state.isTerminal = false)
    (expired : record.deadlineMs ≤ now.millis) (room : db.outbox.length < i64MaxNat)
    (free : ∀ o ∈ db.outbox, outboxKey o ≠ (record.tenantId, record.toTurnRow.recoveryId host)) :
    ∃ db' recovered, recoverDuplicateIfExpired host record now db = .ok (db', recovered) ∧
      Recovers host db record.toTurnRow now db' recovered := by
  obtain ⟨actor, loads, active, lease⟩ := requireActor_busy sound.exclusive timed loaded live
  have late : record.deadline ≤ now :=
    (DateTime.ofMillis_le_iff (materializeTurn_reads loaded.read).deadline).mpr expired
  obtain ⟨db', recovered, done, recovers⟩ := recoverTurnInTx_recovers readsBack sound loaded live expired room free
  refine ⟨db', recovered, ?_, recovers⟩
  rw [recoverDuplicateIfExpired,if_neg (by simp [live]),loads,ok_bind,ensure_of active,ok_bind,if_pos]
  · exact done
  · simpa [lease] using late

end

/-- What `begin_turn` promises for the keys of a store. -/
structure IdempotentAdmission (host : Host) (db : Database) : Prop where
  unique : ∀ t ∈ db.turns, ∀ u ∈ db.turns, t.admission = u.admission → t = u
  kept : ∀ more : List Op, ∀ t ∈ db.turns, ∃ u ∈ (run host db more).turns, u.toTurnCore = t.toTurnCore
  foreign : ∀ ingress admission now, ¬ actorMatches ingress admission.actor →
    beginTurn host ingress admission now db = .error .actorAuthorityMismatch
  conflict : ∀ ingress admission now, ∀ t ∈ db.turns, t.admission = (ingress.tenantId, ingress.idempotencyKey) →
    actorMatches ingress admission.actor → ¬ SameRequest host t ingress admission →
    beginTurn host ingress admission now db = .error .idempotencyConflict
  returned : ∀ ingress admission now, ∀ t ∈ db.turns, t.admission = (ingress.tenantId, ingress.idempotencyKey) →
    actorMatches ingress admission.actor → SameRequest host t ingress admission →
    (t.state.isTerminal = true ∨ now.millis < t.deadlineMs) →
    ∃ record, record.toTurnRow = t ∧ beginTurn host ingress admission now db = .ok (db, .existing record)
  recovered : ∀ ingress admission now, ∀ t ∈ db.turns, t.admission = (ingress.tenantId, ingress.idempotencyKey) →
    actorMatches ingress admission.actor → SameRequest host t ingress admission →
    t.state.isTerminal = false → t.deadlineMs ≤ now.millis → db.outbox.length < i64MaxNat →
    (∀ o ∈ db.outbox, outboxKey o ≠ (t.tenantId, t.recoveryId host)) →
    ∃ db' record, beginTurn host ingress admission now db = .ok (db', .existing record) ∧
      record.toTurnCore = t.toTurnCore ∧ (record.state = .aborted ∨ record.state = .quarantined) ∧
      record.toTurnRow ∈ db'.turns ∧
      ∃ a ∈ db'.actors, a.key = (t.tenantId, t.actorKey) ∧ a.activeTurnId = none
  failed : ∀ ingress admission now error, beginTurn host ingress admission now db = .error error →
    (Op.beginTurn ingress admission now).apply host db = db

theorem recovery_outcome (state : TurnState) : (recoveryExecution state).terminalState = .aborted ∨
    (recoveryExecution state).terminalState = .quarantined := by
  cases state <;> simp [recoveryExecution,TurnExecution.terminalState]

/-- Two lists whose digests begin with different digits have different ids. -/
theorem shortHash_pair {a b : List String}
    (apart : (host.sha256Hex (Host.framed a)).toList.head? ≠ (host.sha256Hex (Host.framed b)).toList.head?) :
    ∀ c ∈ [a, b], ∀ d ∈ [a, b], host.shortHash c = host.shortHash d → c = d := by
  have other : host.shortHash a ≠ host.shortHash b := by
    intro same
    have first := congrArg (fun s => s.toList.head?) same
    simp only [Host.shortHash,String.toList_ofList,List.head?_take] at first
    exact apart first
  simp [other,other.symm]

/-- A new store and its first request. -/
def firstRequest : List Op := [
  .reopen sampleNow sampleNow sampleNow,
  .beginTurn sampleIngress (sampleAdmission false) sampleNow]

theorem otherInput_valid : { sampleInput with profileId := "other" }.valid = true := by decide +kernel

/-- The same request under the actor of another profile. -/
def foreignAdmission : DurableTurnAdmission :=
  { sampleAdmission false with
    actor := .forIngress sha256Host ⟨{ sampleInput with profileId := "other" }, otherInput_valid⟩ "terminal" "main" }

theorem sampleAdmission_reads (approvalRequired : Bool) : ∃ record, materializeTurn sha256Host
    (admittedTurn sha256Host sampleIngress (sampleAdmission approvalRequired) sampleNow) = .ok record :=
  admittedTurn_reads sha256Host_readsBack sha256Host_deadlineReadsBack rfl (by decide)

end Zaion.Turn
