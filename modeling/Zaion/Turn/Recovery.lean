import Zaion.Lib.Numbered
import Zaion.Turn.Accepts

/-! Recovery of expired leases. One call ends the turns of the actors whose lease has run out,
the longest untouched first; nothing that callers can do before makes it fail. -/
namespace Zaion.Turn

open Lib

variable {host : Host} {limits : Limits} {db db' : Database}

/-- The actor is busy with a turn whose time is over. -/
structure Expired (db : Database) (now : DateTime) (a : ActorRow) (t : TurnRow) : Prop where
  actor : a ∈ db.actors
  turn : t ∈ db.turns
  active : a.activeTurnId = some t.turnId
  busy : a.Busy t
  late : t.deadlineMs ≤ now.millis

/-- What the outbox id that recovery gives a turn is hashed from. -/
def TurnRow.recoveryParts (t : TurnRow) : List String :=
  [t.tenantId, t.turnId, toString (t.revision + 1), (recoveryExecution t.state).terminalState.eventType]

/-- What the outbox ids are hashed from that are in use, or that recovery of a live turn would use. -/
def partsInUse (db : Database) : List (List String) :=
  db.outbox.map (fun o => [o.tenantId, o.turnId, toString o.revision, o.eventType]) ++
  (db.turns.filter (fun t => !t.state.isTerminal)).map TurnRow.recoveryParts

/-- No two of these ids are the same truncated hash. -/
def DistinctIds (host : Host) (db : Database) : Prop :=
  ∀ a ∈ partsInUse db, ∀ b ∈ partsInUse db, host.shortHash a = host.shortHash b → a = b

/-- The rows once the turns of the work list are ended. -/
structure RecoversAll (host : Host) (db : Database) (now : DateTime) (work : List (ActorRow × TurnRow)) (db' : Database)
    (records : List DurableTurnRecord) : Prop where
  records : records.map DurableTurnRecord.toTurnRow = work.map (fun w => w.2.recovered host now)
  turns : db'.turns = db.turns.map (fun t => if t ∈ work.map Prod.snd then t.recovered host now else t)
  actors : db'.actors = db.actors.map (fun a => if a ∈ work.map Prod.fst then a.leaseTo none none none now else a)
  outbox : db'.outbox = db.outbox ++ work.map (fun w => w.2.recoveryRow host now)

/-- A work list that recovery can go through: other actors, other turns and other ids each time. -/
structure Workable (host : Host) (db : Database) (now : DateTime) (work : List (ActorRow × TurnRow)) : Prop where
  expired : ∀ w ∈ work, Expired db now w.1 w.2
  apart : work.Pairwise (fun w v => w.1.key ≠ v.1.key ∧ w.2.key ≠ v.2.key ∧ w.2.recoveryId host ≠ v.2.recoveryId host)
  free : ∀ w ∈ work, ∀ o ∈ db.outbox, outboxKey o ≠ (w.2.tenantId, w.2.recoveryId host)
  room : db.outbox.length + work.length ≤ i64MaxNat

section

variable {now : DateTime} {a : ActorRow} {t : TurnRow} {work : List (ActorRow × TurnRow)} {recovered : DurableTurnRecord}

theorem Expired.key (expired : Expired db now a t) : a.key = (t.tenantId, t.actorKey) :=
  Prod.ext expired.busy.tenant.symm expired.busy.actorKey.symm

/-- The rows of other actors and turns stay. -/
theorem Workable.tail (workable : Workable host db now ((a, t) :: work)) (recovers : Recovers host db t now db' recovered) :
    Workable host db' now work := by
  obtain ⟨others, apart⟩ := List.pairwise_cons.mp workable.apart
  have own := (workable.expired _ List.mem_cons_self).key
  have later : ∀ w ∈ work, w ∈ (a, t) :: work := fun _ inside => List.mem_cons_of_mem _ inside
  refine ⟨?_, apart, ?_, ?_⟩
  · intro w inside
    have before := workable.expired w (later w inside)
    obtain ⟨otherActor, otherTurn, _⟩ := others w inside
    refine ⟨?_, ?_, before.active, before.busy, before.late⟩
    · rw [recovers.actors]
      exact Table.mem_modify.mpr (.inr ⟨before.actor, fun same => otherActor (own.trans same.symm)⟩)
    · rw [recovers.turns]
      exact Table.mem_modify.mpr (.inr ⟨before.turn, fun same => otherTurn same.symm⟩)
  · intro w inside o member
    rw [recovers.outbox] at member
    rcases List.mem_append.mp member with old | new
    · exact workable.free w (later w inside) o old
    · rw [List.mem_singleton.mp new]
      intro same
      exact (others w inside).2.2 (congrArg Prod.snd same)
  · have room := workable.room
    rw [recovers.outbox,List.length_append]
    simp only [List.length_cons,List.length_nil] at room ⊢
    omega

/-- Updating one row of a keyed table and then the listed rows updates the list with that row in front. -/
theorem modify_map {α κ : Type} [DecidableEq α] [DecidableEq κ] {key : α → κ} {rows rest : List α} {r : α} {f g : α → α}
    (keyed : Table.Keyed key rows) (member : r ∈ rows) (agree : f r = g r) (done : g r ∉ rest) :
    (Table.modify key (key r) f rows).map (fun x => if x ∈ rest then g x else x) =
      rows.map (fun x => if x ∈ r :: rest then g x else x) := by
  rw [Table.modify,List.map_map]
  refine List.map_congr_left ?_
  intro x inside
  by_cases same : key x = key r
  · obtain rfl := keyed.eq_of_key inside member same
    simp [agree,done]
  · have other : x ≠ r := fun eq => same (congrArg key eq)
    simp [same,other]

/-- Ending the rest after the first ends the whole list. -/
theorem RecoversAll.cons {db'' : Database} {records : List DurableTurnRecord} (sound : Sound host limits db)
    (workable : Workable host db now ((a, t) :: work)) (first : Recovers host db t now db' recovered)
    (rest : RecoversAll host db' now work db'' records) :
    RecoversAll host db now ((a, t) :: work) db'' (recovered :: records) := by
  obtain ⟨others, _⟩ := List.pairwise_cons.mp workable.apart
  have expired := workable.expired _ List.mem_cons_self
  have own := expired.key
  refine ⟨?_, ?_, ?_, ?_⟩
  · rw [List.map_cons,List.map_cons,first.columns,rest.records]
  · rw [rest.turns,first.turns]
    refine modify_map sound.exclusive.turnKeys expired.turn rfl ?_
    intro inside
    obtain ⟨w, listed, twin⟩ := List.mem_map.mp inside
    exact (others w listed).2.1 (by rw [twin]; rfl)
  · rw [rest.actors,first.actors,Database.finish,← own]
    refine modify_map sound.exclusive.actorKeys expired.actor rfl ?_
    intro inside
    obtain ⟨w, listed, twin⟩ := List.mem_map.mp inside
    exact (others w listed).1 (by rw [twin]; rfl)
  · rw [rest.outbox,first.outbox,List.append_assoc,List.map_cons,List.singleton_append]

/-- The loop of `recover_expired_actor_leases` goes through. -/
theorem recoverActors_recovers {tenantId : String} (readsBack : host.ReadsBack) (sound : Sound host unlimited db)
    (workable : Workable host db now work) (tenant : ∀ w ∈ work, w.1.tenantId = tenantId) :
    ∃ db' records, recoverActors host tenantId now (work.map (fun w => (w.1.actorKey, w.2.turnId))) db = .ok (db', records) ∧
      RecoversAll host db now work db' records := by
  induction work generalizing db with
  | nil => exact ⟨db, [], rfl, rfl, by simp, by simp, by simp⟩
  | cons w work ih =>
    obtain ⟨a, t⟩ := w
    have expired : Expired db now a t := workable.expired _ List.mem_cons_self
    have ofTenant : a.tenantId = tenantId := tenant _ List.mem_cons_self
    obtain ⟨record, read⟩ := sound.recorded.reads t expired.turn
    obtain ⟨loaded, rfl⟩ := loaded_of_read sound.exclusive expired.turn read
    have room : db.outbox.length < i64MaxNat := by
      have := workable.room
      rw [List.length_cons] at this
      omega
    obtain ⟨db₁, recovered, done, recovers⟩ := recoverTurnInTx_recovers readsBack sound loaded expired.busy.live expired.late room
      (workable.free _ List.mem_cons_self)
    have step : TurnStep host unlimited db db₁ := recoverTurnInTx_step loaded trivial done
    obtain ⟨db', records, others, all⟩ := ih (sound.step (.turn step)) (workable.tail recovers)
      (fun w inside => tenant w (List.mem_cons_of_mem _ inside))
    have key : record.key = (tenantId, record.turnId) := Prod.ext (expired.busy.tenant.trans ofTenant) rfl
    have required : requireTurn host db tenantId record.turnId = .ok record :=
      requireTurn_ok_iff.mpr ⟨record.toTurnRow, key ▸ loaded.found, loaded.read⟩
    have authority : record.actorKey = a.actorKey := expired.busy.actorKey
    refine ⟨db', recovered :: records, ?_, .cons sound workable recovers all⟩
    simp only [List.map_cons,recoverActors,required,ok_bind,ensure_of authority,done,others]

theorem Expired.recoveryParts_mem (expired : Expired db now a t) : t.recoveryParts ∈ partsInUse db := by
  refine List.mem_append_right _ (List.mem_map_of_mem (List.mem_filter.mpr ⟨expired.turn, ?_⟩))
  simp [expired.busy.live]

/-- The id is new: the revision it is hashed from has no row yet. -/
theorem Expired.free (expired : Expired db now a t) (sound : Sound host limits db) (distinct : DistinctIds host db) {o : OutboxRow}
    (member : o ∈ db.outbox) : outboxKey o ≠ (t.tenantId, t.recoveryId host) := by
  intro same
  obtain ⟨tenant, id⟩ := Prod.mk.inj same
  rw [sound.outboxId member,TurnRow.recoveryId,deterministicOutboxId,deterministicOutboxId,String.append_right_inj] at id
  have parts := distinct _ (List.mem_append_left _ (List.mem_map_of_mem member)) _ expired.recoveryParts_mem id
  simp only [TurnRow.recoveryParts,List.cons.injEq] at parts
  have low := sound.revision_le expired.turn member tenant parts.2.1
  have next : o.revision = t.revision + 1 := toString_injective parts.2.2.1
  omega

theorem Expired.recoveryId_ne {b : ActorRow} {u : TurnRow} (expired : Expired db now a t) (other : Expired db now b u)
    (distinct : DistinctIds host db) (apart : t.key ≠ u.key) : t.recoveryId host ≠ u.recoveryId host := by
  intro same
  rw [TurnRow.recoveryId,TurnRow.recoveryId,deterministicOutboxId,deterministicOutboxId,String.append_right_inj] at same
  have parts := distinct _ expired.recoveryParts_mem _ other.recoveryParts_mem same
  simp only [TurnRow.recoveryParts,List.cons.injEq] at parts
  exact apart (Prod.ext parts.1 parts.2.1)

end

/-- The lease of the actor's turn ends at or before now. -/
def ActorRow.leaseOver (a : ActorRow) (now : DateTime) : Bool :=
  a.activeTurnId.isSome && (match a.leaseUntilMs with | some ms => decide (ms ≤ now.millis) | none => false)

/-- The busy actors of a tenant whose lease is over, by time of their last change and then by key. -/
structure ExpiredOrder (db : Database) (tenantId : String) (now : DateTime) (all : List ActorRow) : Prop where
  perm : all.Perm (db.actors.filter (fun a => a.tenantId = tenantId && a.leaseOver now))
  sorted : all.Pairwise (fun a b => a.updatedAtMs < b.updatedAtMs ∨ (a.updatedAtMs = b.updatedAtMs ∧ a.actorKey < b.actorKey))

theorem ExpiredOrder.mem {tenantId : String} {now : DateTime} {all : List ActorRow} {a : ActorRow}
    (order : ExpiredOrder db tenantId now all) (inside : a ∈ all) :
    a ∈ db.actors ∧ a.tenantId = tenantId ∧ a.leaseOver now = true := by
  have member := List.mem_filter.mp (order.perm.mem_iff.mp inside)
  simpa using member

/-- A list whose members each have a partner is the list of first components of a list of pairs. -/
theorem exists_pairs {α β : Type} {R : α → β → Prop} {l : List α} (partner : ∀ a ∈ l, ∃ b, R a b) :
    ∃ pairs : List (α × β), pairs.map Prod.fst = l ∧ ∀ w ∈ pairs, R w.1 w.2 := by
  induction l with
  | nil => exact ⟨[], rfl, by simp⟩
  | cons a l ih =>
    obtain ⟨b, holds⟩ := partner a List.mem_cons_self
    obtain ⟨pairs, firsts, all⟩ := ih (fun a inside => partner a (List.mem_cons_of_mem _ inside))
    exact ⟨(a, b) :: pairs, by rw [List.map_cons,firsts], List.forall_mem_cons.mpr ⟨holds, all⟩⟩

section

variable {tenantId : String} {now : DateTime} {all : List ActorRow}

/-- The actors in the order of `ORDER BY updated_at_ms, actor_key`. -/
def byAge (actors : List ActorRow) : List ActorRow :=
  actors.mergeSort (fun a b => decide (a.updatedAtMs < b.updatedAtMs ∨ (a.updatedAtMs = b.updatedAtMs ∧ a.actorKey ≤ b.actorKey)))

theorem byAge_pairwise (actors : List ActorRow) : (byAge actors).Pairwise (fun a b =>
    a.updatedAtMs < b.updatedAtMs ∨ (a.updatedAtMs = b.updatedAtMs ∧ a.actorKey ≤ b.actorKey)) := by
  have sorted := @List.pairwise_mergeSort _ (fun a b : ActorRow => decide (a.updatedAtMs < b.updatedAtMs ∨
    (a.updatedAtMs = b.updatedAtMs ∧ a.actorKey ≤ b.actorKey))) ?_ ?_ actors
  · exact sorted.imp (fun before => by simpa using before)
  · intro a b c first second
    simp only [decide_eq_true_eq] at first second ⊢
    rcases first with less | ⟨same, below⟩ <;> rcases second with less' | ⟨same', below'⟩
    · exact .inl (less.trans less')
    · exact .inl (same' ▸ less)
    · exact .inl (same ▸ less')
    · exact .inr ⟨same.trans same', String.le_trans below below'⟩
  · intro a b
    simp only [Bool.or_eq_true,decide_eq_true_eq]
    rcases lt_trichotomy a.updatedAtMs b.updatedAtMs with less | same | more
    · exact .inl (.inl less)
    · rcases String.le_total a.actorKey b.actorKey with below | above
      · exact .inl (.inr ⟨same, below⟩)
      · exact .inr (.inr ⟨same.symm, above⟩)
    · exact .inr (.inl more)

/-- Within a tenant no two actors have the same key. -/
theorem Exclusive.actorKey_ne (exclusive : Exclusive db.actors db.turns) {actors : List ActorRow}
    (perm : actors.Perm (db.actors.filter (fun a => a.tenantId = tenantId && a.leaseOver now))) :
    actors.Pairwise (fun a b => a.actorKey ≠ b.actorKey) := by
  have keys : (db.actors.filter (fun a => a.tenantId = tenantId && a.leaseOver now)).Pairwise (fun a b => a.key ≠ b.key) :=
    (List.pairwise_map.mp exclusive.actorKeys).filter _
  have apart : actors.Pairwise (fun a b => a.key ≠ b.key) := (perm.pairwise_iff (fun other => other.symm)).mpr keys
  refine apart.imp_of_mem ?_
  intro a b first second other same
  have own : ∀ c ∈ actors, c.tenantId = tenantId := by
    intro c inside
    have := (List.mem_filter.mp (perm.mem_iff.mp inside)).2
    simp only [Bool.and_eq_true,decide_eq_true_eq] at this
    exact this.1
  exact other (Prod.ext ((own a first).trans (own b second).symm) same)

/-- What the scan selects, an actor with its turn at a time. -/
theorem expiredScan_eq (exclusive : Exclusive db.actors db.turns) (tenantId : String) (now : DateTime) :
    ∃ all, ExpiredOrder db tenantId now all ∧
      expiredScan db tenantId now = all.filterMap (fun a => a.activeTurnId.map (fun turnId => (a.actorKey, turnId))) := by
  obtain ⟨over_, leased, scan⟩ : ∃ over_ : ActorRow → Bool,
      (∀ a, over_ a = a.leaseUntilMs.all (fun ms => decide (ms ≤ now.millis))) ∧
      expiredScan db tenantId now = (byAge (db.actors.filter (fun a => a.tenantId = tenantId && over_ a))).filterMap
        (fun a => a.activeTurnId.map (fun turnId => (a.actorKey, turnId))) := by
    refine ⟨_, ?_, rfl⟩
    intro a
    cases a.leaseUntilMs <;> rfl
  let scanned := db.actors.filter (fun a => a.tenantId = tenantId && over_ a)
  refine ⟨(byAge scanned).filter (·.activeTurnId.isSome), ?_, ?_⟩
  · have perm : ((byAge scanned).filter (·.activeTurnId.isSome)).Perm
        (db.actors.filter (fun a => a.tenantId = tenantId && a.leaseOver now)) := by
      refine ((List.mergeSort_perm scanned _).filter _).trans (.of_eq ?_)
      rw [List.filter_filter]
      refine List.filter_congr ?_
      intro a member
      cases active : a.activeTurnId with
      | none => simp [ActorRow.leaseOver,active]
      | some turnId =>
        obtain ⟨t, _, _, busy⟩ := exclusive.active a member turnId active
        simp [ActorRow.leaseOver,active,leased,busy.lease]
    refine ⟨perm, (((byAge_pairwise scanned).filter _).and (exclusive.actorKey_ne perm)).imp ?_⟩
    rintro a b ⟨less | ⟨same, below⟩, other⟩
    · exact .inl less
    · refine .inr ⟨same, ?_⟩
      by_contra above
      exact other (String.le_antisymm below (String.not_lt.mp above))
  · rw [scan,List.filterMap_filter]
    refine List.filterMap_congr ?_
    intro a _
    cases active : a.activeTurnId <;> simp

/-- An actor whose lease is over is busy with a turn whose time is over. -/
theorem ExpiredOrder.expired (exclusive : Exclusive db.actors db.turns) (order : ExpiredOrder db tenantId now all) {a : ActorRow}
    (inside : a ∈ all) : ∃ t, Expired db now a t := by
  obtain ⟨member, _, over_⟩ := order.mem inside
  cases active : a.activeTurnId with
  | none => simp [ActorRow.leaseOver,active] at over_
  | some turnId =>
    obtain ⟨t, turn, id, busy⟩ := exclusive.active a member turnId active
    simp only [ActorRow.leaseOver,active,busy.lease,Option.isSome_some,Bool.true_and,decide_eq_true_eq] at over_
    exact ⟨t, member, turn, active.trans (congrArg some id.symm), busy, over_⟩

/-- A list of expired actors with their turns, in that order, can be worked through. -/
theorem ExpiredOrder.workable {work : List (ActorRow × TurnRow)} {limit : Nat} (sound : Sound host limits db)
    (order : ExpiredOrder db tenantId now all) (distinct : DistinctIds host db) (firsts : work.map Prod.fst = all.take limit)
    (expired : ∀ w ∈ work, Expired db now w.1 w.2) (room : db.outbox.length + work.length ≤ i64MaxNat) :
    Workable host db now work where
  expired := expired
  free := fun w inside o member => (expired w inside).free sound distinct member
  room := room
  apart := by
    have keys : (work.map Prod.fst).Pairwise (fun a b => a.actorKey ≠ b.actorKey) := by
      rw [firsts]
      exact (sound.exclusive.actorKey_ne order.perm).sublist (List.take_sublist _ _)
    refine (List.pairwise_map.mp keys).imp_of_mem ?_
    intro w v first second other
    have turns : w.2.key ≠ v.2.key := by
      intro same
      have twin := sound.exclusive.turnKeys.eq_of_key (expired w first).turn (expired v second).turn same
      exact other ((expired w first).busy.actorKey.symm.trans (twin ▸ (expired v second).busy.actorKey))
    exact ⟨fun same => other (congrArg Prod.snd same), turns, (expired w first).recoveryId_ne (expired v second) distinct turns⟩

end

/-- What recovery makes of a turn. -/
structure Ended (t t' : TurnRow) : Prop where
  core : t'.toTurnCore = t.toTurnCore
  revision : t'.revision = t.revision + 1
  state : ((t.state = .accepted ∨ t.state = .routed ∨ t.state = .waitingApproval) ∧ t'.state = .aborted) ∨
    ((t.state = .running ∨ t.state = .toolRunning) ∧ t'.state = .quarantined)

theorem TurnRow.recovered_ended {t : TurnRow} {now : DateTime} (live : t.state.isTerminal = false) :
    Ended t (t.recovered host now) := by
  refine ⟨rfl, rfl, ?_⟩
  change _ ∨ _ ∧ (recoveryExecution t.state).terminalState = _
  cases state : t.state <;> simp_all [recoveryExecution,TurnExecution.terminalState,TurnRow.recovered,TurnState.isTerminal,
    TurnRow.advanced]

theorem oneTurn_ids : DistinctIds sha256Host (oneTurn false) := by
  obtain ⟨turns, outbox⟩ := oneTurn_rows false
  have parts : partsInUse (oneTurn false) = [
      [(requested false).tenantId, (requested false).turnId, toString 0, TurnState.eventType .accepted],
      (requested false).recoveryParts] := by
    rw [partsInUse,outbox,turns]
    rfl
  unfold DistinctIds
  rw [parts]
  refine shortHash_pair ?_
  decide +kernel

/-- A minute after its deadline. -/
def sampleLater : DateTime := ⟨sampleIngress.deadline.nanos + 60000000000, by decide, by decide⟩

end Zaion.Turn
