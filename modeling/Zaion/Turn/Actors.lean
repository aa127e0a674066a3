import Zaion.Turn.Run

/-! An actor and its turn: what every run keeps of the two rows that record a turn under
way, and that recovery always finds an expired turn. -/
namespace Zaion.Turn

open Lib

/-- The error a lost actor lease is reported by. -/
def TurnStoreError.isLeaseLost : TurnStoreError → Prop
  | .actorLeaseLost _ => True
  | _ => False

section

variable {host : Host} {db : Database}

attribute [local simp] TurnStoreError.isLeaseLost avoids_bind_iff avoids_mapError

theorem validateNoExtraOutboxTriggers_avoids :
    Avoids TurnStoreError.isLeaseLost (validateNoExtraOutboxTriggers db) := by
  rw [validateNoExtraOutboxTriggers,avoids_bind_iff]
  refine ⟨avoids_checkAll (fun object _ => ?_), fun _ _ => ?_⟩
  · simp [validateSchemaObject]
  · unfold validateOutboxTriggerAllowlist
    split <;> simp

theorem materializeTurn_avoids (row : TurnRow) :
    Avoids TurnStoreError.isLeaseLost (materializeTurn host row) := by
  have bindings : ∀ authority, Avoids TurnStoreError.isLeaseLost
      (verifyTurnBindings host row.toTurnCore authority) := by
    intro authority
    rw [verifyTurnBindings,avoids_bind_iff]
    exact ⟨avoids_checkAll (fun b _ => by simp [verifyJsonTextBinding]), fun _ _ => by simp⟩
  have hashes : Avoids TurnStoreError.isLeaseLost
      (verifyTerminalHash host row.terminalJson row.terminalHash) := by
    unfold verifyTerminalHash
    split <;> simp [verifyStoredHash]
  have terminal : ∀ result, Avoids TurnStoreError.isLeaseLost (validatePersistedTerminal row.state result) := by
    intro result
    unfold validatePersistedTerminal
    split <;> simp
  have text : Avoids TurnStoreError.isLeaseLost (fromTextOption host row.terminalJson) := by
    cases row.terminalJson <;> simp [fromTextOption,fromText]
  simp [materializeTurn,verifyStoredHash,fromText,parseTimestamp,bindings,hashes,terminal,text]

theorem insertOutbox_avoids (record : DurableTurnRecord) (previous : Option TurnState)
    (terminalHash : Option String) (now : DateTime) :
    Avoids TurnStoreError.isLeaseLost (insertOutbox host record previous terminalHash now db) := by
  simp [insertOutbox,nextCommitOrdinal,parseTimestamp,revisionToI64,insertOutboxRow,failIntegrity,
    validateNoExtraOutboxTriggers_avoids]

theorem requireTurn_avoids (tenantId turnId : String) :
    Avoids TurnStoreError.isLeaseLost (requireTurn host db tenantId turnId) := by
  have loads : Avoids TurnStoreError.isLeaseLost (loadTurn host db tenantId turnId) := by
    unfold loadTurn
    split <;> simp [materializeTurn_avoids]
  simp [requireTurn,loads]

theorem recoverTurnInTx_avoids (record : DurableTurnRecord) (now : DateTime) :
    Avoids TurnStoreError.isLeaseLost (recoverTurnInTx host record now db) := by
  rw [recoverTurnInTx,avoids_bind_iff]
  refine ⟨by simp, fun _ _ => ?_⟩
  split
  · simp [clearActor,updateActor]
  · simp [revisionToI64,updateTurn,clearActor,updateActor,requireTurn_avoids,insertOutbox_avoids]

/-- The actor of a live turn is there and busy with it. -/
theorem recoverDuplicate_avoids {record : DurableTurnRecord} {now : DateTime}
    (exclusive : Exclusive db.actors db.turns) (loaded : Loaded host db record) :
    Avoids TurnStoreError.isLeaseLost (recoverDuplicateIfExpired host record now db) := by
  unfold recoverDuplicateIfExpired
  split
  · simp
  · rename_i live
    obtain ⟨a, member, key, active⟩ := exclusive.live _ (Table.mem_of_select loaded.found)
      (Bool.eq_false_iff.mpr live)
    have found : Table.select ActorRow.key (record.tenantId, record.actorKey) db.actors = some a :=
      exclusive.actorKeys.select_iff.mpr ⟨member, key⟩
    rw [avoids_bind_iff]
    constructor
    · simp [requireActor,loadActor,found,rowToActor]
    · intro actor read
      obtain ⟨row, found', read⟩ := requireActor_ok_iff.mp read
      obtain rfl := Option.some.inj (found.symm.trans found')
      have columns := (rowToActor_reads read).columns
      rw [avoids_bind_iff]
      refine ⟨by simp [columns,active], fun _ _ => ?_⟩
      split
      · exact recoverTurnInTx_avoids record now
      · simp

/-- `begin_turn` on a key it knows. -/
theorem beginTurn_avoids {ingress : AuthenticatedIngress} {admission : DurableTurnAdmission} {now : DateTime}
    (exclusive : Exclusive db.actors db.turns)
    (known : ∃ t ∈ db.turns, t.admission = (ingress.tenantId, ingress.idempotencyKey)) :
    Avoids TurnStoreError.isLeaseLost (beginTurn host ingress admission now db) := by
  obtain ⟨t, member, own⟩ := known
  have found : Table.select TurnRow.admission (ingress.tenantId, ingress.idempotencyKey) db.turns = some t :=
    exclusive.admissions.select_iff.mpr ⟨member, own⟩
  rw [beginTurn,avoids_bind_iff]
  refine ⟨by simp, fun _ _ => ?_⟩
  rw [avoids_bind_iff]
  constructor
  · simp [loadByIdempotency,found,materializeTurn_avoids]
  · intro existing lookup
    cases existing with
    | none => simp [loadByIdempotency,found,map_ok_iff] at lookup
    | some record =>
      have loaded := (loadByIdempotency_loaded exclusive.turnKeys lookup).1
      simp [recoverDuplicate_avoids exclusive loaded]

end

section

variable {host : Host} {limits : Limits} {db : Database}

/-- A live turn of an actor is the one the actor's row names. -/
theorem Exclusive.active_iff (exclusive : Exclusive db.actors db.turns) {a : ActorRow} (actor : a ∈ db.actors)
    {id : String} : a.activeTurnId = some id ↔
      ∃ t ∈ db.turns, t.turnId = id ∧ t.tenantId = a.tenantId ∧ t.actorKey = a.actorKey ∧
        t.state.isTerminal = false := by
  constructor
  · intro active
    obtain ⟨t, member, own, busy⟩ := exclusive.active a actor id active
    exact ⟨t, member, own, busy.tenant, busy.actorKey, busy.live⟩
  · rintro ⟨t, member, rfl, tenant, actorKey, live⟩
    obtain ⟨other, inside, key, active⟩ := exclusive.live t member live
    have same : other = a := exclusive.actorKeys.eq_of_key inside actor (key.trans (Prod.ext tenant actorKey))
    exact same ▸ active

/-- An actor never has two live turns. -/
theorem Exclusive.one_live (exclusive : Exclusive db.actors db.turns) {t u : TurnRow} (member : t ∈ db.turns)
    (other : u ∈ db.turns) (tenant : t.tenantId = u.tenantId) (actorKey : t.actorKey = u.actorKey)
    (live : t.state.isTerminal = false) (live' : u.state.isTerminal = false) : t = u := by
  obtain ⟨a, inside, key, active⟩ := exclusive.live t member live
  obtain ⟨b, inside', key', active'⟩ := exclusive.live u other live'
  have same : a = b := by
    apply exclusive.actorKeys.eq_of_key inside inside'
    rw [key,key',tenant,actorKey]
  subst same
  exact exclusive.turnKeys.eq_of_key member other
    (Prod.ext tenant (Option.some.inj (active.symm.trans active')))

/-- The scan of `recover_expired_actor_leases` sees every live turn past its deadline. -/
theorem Exclusive.scanned (exclusive : Exclusive db.actors db.turns) {t : TurnRow} (member : t ∈ db.turns)
    (live : t.state.isTerminal = false) {now : DateTime} (expired : t.deadlineMs ≤ now.millis) :
    (t.actorKey, t.turnId) ∈ expiredScan db t.tenantId now := by
  obtain ⟨a, inside, key, active⟩ := exclusive.live t member live
  obtain ⟨tenant, actorKey⟩ := Prod.mk.inj key
  have busy := exclusive.busy inside member tenant.symm active
  simp only [expiredScan,List.mem_filterMap,List.mem_mergeSort,List.mem_filter]
  refine ⟨a, ⟨inside, ?_⟩, ?_⟩
  · simp [tenant,busy.lease,expired]
  · simp [active,actorKey]

end

/-- Actors and turns as two records of one fact. -/
structure OneTurnEach (host : Host) (db : Database) : Prop where
  active : ∀ a ∈ db.actors, ∀ id, a.activeTurnId = some id ↔
    ∃ t ∈ db.turns, t.turnId = id ∧ t.tenantId = a.tenantId ∧ t.actorKey = a.actorKey ∧
      t.state.isTerminal = false
  lease : ∀ a ∈ db.actors, ∀ t ∈ db.turns, t.tenantId = a.tenantId → a.activeTurnId = some t.turnId →
    a.leaseOwner.isSome = true ∧ a.leaseUntilMs = some t.deadlineMs
  one : ∀ t ∈ db.turns, ∀ u ∈ db.turns, t.tenantId = u.tenantId → t.actorKey = u.actorKey →
    t.state.isTerminal = false → u.state.isTerminal = false → t = u
  actor : ∀ t ∈ db.turns, ∃ a ∈ db.actors, a.tenantId = t.tenantId ∧ a.actorKey = t.actorKey
  scanned : ∀ t ∈ db.turns, t.state.isTerminal = false → ∀ now : DateTime, t.deadlineMs ≤ now.millis →
    (t.actorKey, t.turnId) ∈ expiredScan db t.tenantId now
  duplicate : ∀ ingress admission now owner,
    (∃ t ∈ db.turns, t.admission = (ingress.tenantId, ingress.idempotencyKey)) →
    beginTurn host ingress admission now db ≠ .error (.actorLeaseLost owner)

/-- Actors and turns agree after every run. -/
theorem actors_and_turns_agree (host : Host) (path instanceId : String) (ops : List Op) :
    OneTurnEach host (run host (Database.created path instanceId) ops) := by
  have exclusive := (run_sound host path instanceId ops).exclusive
  constructor
  case active => exact fun a actor id => exclusive.active_iff actor
  case lease =>
    intro a actor t member tenant active
    have busy := exclusive.busy actor member tenant active
    exact ⟨busy.owner, busy.lease⟩
  case one =>
    exact fun t member u other tenant actorKey live live' =>
      exclusive.one_live member other tenant actorKey live live'
  case actor =>
    intro t member
    obtain ⟨a, actor, key⟩ := exclusive.owned t member
    exact ⟨a, actor, Prod.mk.inj key⟩
  case scanned => exact fun t member live now expired => exclusive.scanned member live expired
  case duplicate =>
    intro ingress admission now owner known failed
    exact beginTurn_avoids exclusive known _ failed trivial

end Zaion.Turn
