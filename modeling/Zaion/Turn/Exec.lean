import Zaion.Turn.Step

/-! Operations on turns, read as steps. -/
namespace Zaion.Turn

open Lib

variable {host : Host} {limits : Limits} {db db' : Database}

theorem insertOutbox_ok {record : DurableTurnRecord} {previous : Option TurnState}
    {terminalHash : Option String} {now : DateTime}
    (done : insertOutbox host record previous terminalHash now db = .ok db') :
    Insertable db (record.toTurnRow.entry host previous terminalHash now) ∧
      db' = db.appendEntry (record.toTurnRow.entry host previous terminalHash now) := by
  simp only [insertOutbox,insertOutboxRow,revisionToI64,parseTimestamp,bind_ok_iff,ensure_ok_iff,
    required_ok_iff,DateTime.ofMillis_millis,Option.some.injEq,Except.ok.injEq] at done
  obtain ⟨_, installed, _, _, _, rfl, _, ⟨_, bound, _⟩, _, ⟨_, key, _, revision, _, _, _, _, rfl⟩, _, _,
    rfl⟩ := done
  exact ⟨⟨key, revision, bound, installed⟩, rfl⟩

theorem updateActor_ok {key : String × String} {cond : ActorRow → Bool} {f : ActorRow → ActorRow}
    {lost : TurnStoreError} (done : updateActor key cond f lost db = .ok db') :
    ∃ a, Table.select ActorRow.key key db.actors = some a ∧ cond a = true ∧
      db' = { db with actors := Table.modify ActorRow.key key f db.actors } := by
  simp only [updateActor,bind_ok_iff,required_ok_iff,Table.update_iff,Except.ok.injEq] at done
  obtain ⟨_, ⟨a, found, holds, rfl⟩, rfl⟩ := done
  exact ⟨a, found, holds, rfl⟩

theorem updateTurn_ok {turn : TurnRow} {next : TurnState} {revision : Nat}
    {terminalJson terminalHash : Option String} {now : DateTime}
    (done : updateTurn turn next revision terminalJson terminalHash now db = .ok db') :
    db' = { db with turns := (Table.modify TurnRow.key turn.key
      (·.advanced next revision terminalJson terminalHash now) db.turns) } := by
  simp only [updateTurn,bind_ok_iff,required_ok_iff,Table.update_iff,Except.ok.injEq] at done
  obtain ⟨_, ⟨_, _, _, rfl⟩, rfl⟩ := done
  rfl

/-- A record that `load_turn` gave, and the row it stands for. -/
structure Loaded (host : Host) (db : Database) (record : DurableTurnRecord) : Prop where
  found : Table.select TurnRow.key record.key db.turns = some record.toTurnRow
  read : materializeTurn host record.toTurnRow = .ok record

theorem requireTurn_loaded {tenantId turnId : String} {record : DurableTurnRecord}
    (done : requireTurn host db tenantId turnId = .ok record) :
    Loaded host db record ∧ record.key = (tenantId, turnId) := by
  obtain ⟨row, found, read⟩ := requireTurn_ok_iff.mp done
  have same := (materializeTurn_reads read).columns
  have key := Table.key_of_select found
  rw [← same] at found read key
  exact ⟨⟨by rw [key]; exact found, read⟩, key⟩

theorem loadByIdempotency_loaded {tenantId idempotencyKey : String} {record : DurableTurnRecord}
    (keyed : Table.Keyed TurnRow.key db.turns)
    (done : loadByIdempotency host db tenantId idempotencyKey = .ok (some record)) :
    Loaded host db record ∧ record.admission = (tenantId, idempotencyKey) := by
  unfold loadByIdempotency at done
  cases found : Table.select TurnRow.admission (tenantId, idempotencyKey) db.turns with
  | none => simp [found] at done
  | some row =>
    simp only [found,map_ok_iff,Option.some.injEq,exists_eq_right] at done
    have same := (materializeTurn_reads done).columns
    rw [← same] at found done
    exact ⟨⟨keyed.select_mem (Table.mem_of_select found), done⟩, Table.key_of_select found⟩

/-- After an update of its row, a turn is loaded as the updated row. -/
theorem requireTurn_advanced {turn : TurnRow} {next : TurnState} {revision : Nat}
    {terminalJson terminalHash : Option String} {now : DateTime} {record : DurableTurnRecord}
    {tenantId turnId : String} (found : Table.select TurnRow.key turn.key db.turns = some turn)
    (key : turn.key = (tenantId, turnId))
    (turns : db'.turns = Table.modify TurnRow.key turn.key
      (·.advanced next revision terminalJson terminalHash now) db.turns)
    (done : requireTurn host db' tenantId turnId = .ok record) :
    record.toTurnRow = turn.advanced next revision terminalJson terminalHash now ∧
      materializeTurn host (turn.advanced next revision terminalJson terminalHash now) = .ok record := by
  obtain ⟨row, selected, read⟩ := requireTurn_ok_iff.mp done
  rw [turns,← key,Table.select_modify_self (by intro t same; exact same),found] at selected
  cases selected
  exact ⟨(materializeTurn_reads read).columns, read⟩

theorem updatedAt_le {record : DurableTurnRecord} {row : TurnRow} {now : DateTime} (reads : record.Reads row)
    (monotone : record.updatedAt ≤ now) : row.updatedAtMs ≤ now.millis :=
  (DateTime.ofMillis_le_iff reads.updatedAt).mp monotone

theorem recovery_legal {state : TurnState} (live : state.isTerminal = false) :
    state.canTransitionTo (recoveryExecution state).terminalState = true ∧
      (recoveryExecution state).terminalState.isTerminal = true := by
  cases state <;> simp_all [recoveryExecution,TurnExecution.terminalState,TurnState.canTransitionTo,
    TurnState.isTerminal]

/-- `recover_turn_in_tx` clears the lease of a finished turn or ends a live one. -/
theorem recoverTurnInTx_step {record recovered : DurableTurnRecord} {now : DateTime}
    (loaded : Loaded host db record) (clock : limits.clock now)
    (done : recoverTurnInTx host record now db = .ok (db', recovered)) : TurnStep host limits db db' := by
  simp only [recoverTurnInTx,bind_ok_iff,ensure_ok_iff] at done
  obtain ⟨_, monotone, done⟩ := done
  have monotone := updatedAt_le (materializeTurn_reads loaded.read) monotone
  by_cases terminal : record.state.isTerminal = true
  · rw [if_pos terminal] at done
    simp only [bind_ok_iff,Except.ok.injEq,Prod.mk.injEq] at done
    obtain ⟨_, cleared, rfl, _⟩ := done
    obtain ⟨a, found, active, rfl⟩ := updateActor_ok cleared
    exact .clear record.toTurnRow now loaded.found terminal ⟨a, found, by simpa using active⟩
  · rw [if_neg terminal] at done
    simp only [bind_ok_iff,mapError_ok_iff,revisionToI64,ensure_ok_iff,Except.ok.injEq,
      Prod.mk.injEq] at done
    obtain ⟨_, moved, _, ⟨_, _, rfl⟩, _, updated, _, cleared, _, reloaded, _, inserted, rfl, rfl⟩ := done
    obtain ⟨_, _, legal, rfl⟩ := compareAndTransition_ok moved
    have live := (recovery_legal (Bool.eq_false_iff.mpr terminal)).2
    obtain rfl := updateTurn_ok updated
    obtain ⟨a, found, active, rfl⟩ := updateActor_ok cleared
    obtain ⟨same, read⟩ := requireTurn_advanced loaded.found rfl rfl reloaded
    obtain ⟨insertable, rfl⟩ := insertOutbox_ok inserted
    rw [same] at insertable ⊢
    have step : TurnStep host limits db _ := .advance record.toTurnRow _ _ _ "" now
      { found := loaded.found, legal, result := by rw [live]; rfl, monotone
        leased := ⟨a, found, by simpa using active, by simp [live]⟩
        reads := ⟨_, read⟩, insertable := ⟨insertable.key, insertable.revision, insertable.bound,
          insertable.installed⟩ } clock
    simpa [Database.advance,ActorRow.afterTransition,live] using step

theorem admitTurn_step {turn : TurnRow} {owner : String} {now : DateTime} {record : DurableTurnRecord}
    (genesis : turn.state = .accepted ∨ turn.state = .waitingApproval) (revision : turn.revision = 0)
    (terminalHash : turn.terminalHash = none) (created : turn.createdAtMs = now.millis)
    (updated : turn.updatedAtMs = now.millis) (inTime : now.millis ≤ turn.deadlineMs)
    (allowed : limits.genesis turn.state) (clock : limits.clock now)
    (done : admitTurn host turn owner now db = .ok (db', record)) : TurnStep host limits db db' := by
  simp only [admitTurn,insertTurn,bind_ok_iff,ensure_ok_iff,Except.ok.injEq,Prod.mk.injEq] at done
  obtain ⟨_, ⟨_, fresh, _, unused, _, _, rfl⟩, _, leased, _, reloaded, _, inserted, rfl, rfl⟩ := done
  obtain ⟨a, found, idle, rfl⟩ := updateActor_ok leased
  obtain ⟨row, selected, read⟩ := requireTurn_ok_iff.mp reloaded
  have itself : row = turn := by
    have new : Table.select TurnRow.key turn.key (db.turns ++ [turn]) = some turn :=
      Table.select_append_new fresh
    exact (Option.some.inj (new.symm.trans selected)).symm
  subst itself
  have same := (materializeTurn_reads read).columns
  obtain ⟨insertable, rfl⟩ := insertOutbox_ok inserted
  rw [same] at insertable ⊢
  exact .admitRow row owner now
    { fresh, unused, idle := ⟨a, found, by simpa using idle⟩, genesis, revision, terminalHash, created
      updated, inTime, reads := ⟨_, read⟩
      insertable := ⟨insertable.key, insertable.revision, insertable.bound, insertable.installed⟩ }
    allowed clock

theorem ensureActorRow_steps {actor : TurnActorIdentity} {now : DateTime}
    (done : ensureActorRow actor now db = .ok db') : TurnSteps host limits db db' := by
  simp only [ensureActorRow,bind_ok_iff,Except.ok.injEq] at done
  obtain ⟨_, _, _, _, rfl⟩ := done
  unfold insertActor
  split
  · exact .refl
  · rename_i missing
    exact .single (.addActor actor now (fun a member same => missing ⟨a, member, same⟩))

theorem recoverActorForAdmission_steps {actor : TurnActorIdentity} {now : DateTime}
    (clock : limits.clock now) (done : recoverActorForAdmission host actor now db = .ok db') :
    TurnSteps host limits db db' := by
  simp only [recoverActorForAdmission,bind_ok_iff] at done
  obtain ⟨record, _, done⟩ := done
  cases active : record.activeTurnId with
  | none =>
    simp only [active,Except.ok.injEq] at done
    exact done ▸ .refl
  | some turnId =>
    simp only [active,bind_ok_iff,Except.ok.injEq] at done
    obtain ⟨_, _, _, _, _, loaded, result, recovered, rfl⟩ := done
    exact .single (recoverTurnInTx_step (requireTurn_loaded loaded).1 clock recovered)

theorem recoverDuplicate_steps {record recovered : DurableTurnRecord} {now : DateTime}
    (loaded : Loaded host db record) (clock : limits.clock now)
    (done : recoverDuplicateIfExpired host record now db = .ok (db', recovered)) :
    TurnSteps host limits db db' := by
  unfold recoverDuplicateIfExpired at done
  split at done
  · cases done
    exact .refl
  · simp only [bind_ok_iff] at done
    obtain ⟨_, _, _, _, done⟩ := done
    split at done
    · exact .single (recoverTurnInTx_step loaded clock done)
    · cases done
      exact .refl

theorem admittedTurn_state (ingress : AuthenticatedIngress) (admission : DurableTurnAdmission)
    (now : DateTime) : (admittedTurn host ingress admission now).state =
      if admission.approvalRequired then .waitingApproval else .accepted := rfl

theorem beginTurn_steps {ingress : AuthenticatedIngress} {admission : DurableTurnAdmission}
    {now : DateTime} {result : BeginTurnResult} (keyed : Table.Keyed TurnRow.key db.turns)
    (clock : limits.clock now)
    (allowed : (∀ t ∈ db.turns, t.admission ≠ (ingress.tenantId, ingress.idempotencyKey)) →
      limits.genesis (admittedTurn host ingress admission now).state)
    (done : beginTurn host ingress admission now db = .ok (db', result)) : TurnSteps host limits db db' := by
  simp only [beginTurn,bind_ok_iff] at done
  obtain ⟨_, _, found, lookup, done⟩ := done
  cases found with
  | some existing =>
    simp only [bind_ok_iff,Except.ok.injEq,Prod.mk.injEq] at done
    obtain ⟨_, _, _, recovered, rfl, _⟩ := done
    exact recoverDuplicate_steps (loadByIdempotency_loaded keyed lookup).1 clock recovered
  | none =>
    have unused : ∀ t ∈ db.turns, t.admission ≠ (ingress.tenantId, ingress.idempotencyKey) := by
      unfold loadByIdempotency at lookup
      cases missing : Table.select TurnRow.admission (ingress.tenantId, ingress.idempotencyKey) db.turns with
      | none => exact Table.select_none_iff.mp missing
      | some row => simp [missing,map_ok_iff] at lookup
    simp only [bind_ok_iff,ensure_ok_iff,Except.ok.injEq,Prod.mk.injEq] at done
    obtain ⟨_, inTime, _, ensured, _, freed, _, admitted, rfl, _⟩ := done
    have inTime : now.millis ≤ ingress.deadline.millis :=
      DateTime.millis_mono (Int.le_of_lt (DateTime.lt_def.mp inTime))
    have genesis : (admittedTurn host ingress admission now).state = .accepted ∨
        (admittedTurn host ingress admission now).state = .waitingApproval := by
      rw [admittedTurn_state]
      cases admission.approvalRequired <;> simp
    exact ((ensureActorRow_steps ensured).trans (recoverActorForAdmission_steps clock freed)).tail
      (admitTurn_step genesis rfl rfl rfl rfl inTime (allowed unused) clock admitted)

theorem transitionInner_step {tenantId turnId leaseOwner : String} {expectedState : TurnState}
    {expectedRevision : Nat} {next : TurnState} {terminalResult : Option TurnExecution} {now : DateTime}
    {record : DurableTurnRecord} (complete : terminalResult.isSome = next.isTerminal)
    (clock : limits.clock now)
    (done : transitionInner host tenantId turnId leaseOwner expectedState expectedRevision next
      terminalResult now db = .ok (db', record)) : TurnStep host limits db db' := by
  simp only [transitionInner,verifyActorLease,bind_ok_iff,ensure_ok_iff,mapError_ok_iff,revisionToI64,
    Except.ok.injEq,Prod.mk.injEq] at done
  obtain ⟨_, _, current, loaded, _, monotone, _, ⟨actor, owned, active, _, deadline, hasLease, early⟩, _,
    moved, _, _, _, ⟨_, _, rfl⟩, _, updated, _, released, _, reloaded, _, inserted, rfl, rfl⟩ := done
  obtain ⟨rfl, rfl, legal, rfl⟩ := compareAndTransition_ok moved
  obtain ⟨loaded, key⟩ := requireTurn_loaded loaded
  have monotone := updatedAt_le (materializeTurn_reads loaded.read) monotone
  obtain rfl := updateTurn_ok updated
  obtain ⟨a, found, held, rfl⟩ := updateActor_ok released
  obtain ⟨same, read⟩ := requireTurn_advanced loaded.found key rfl reloaded
  obtain ⟨insertable, rfl⟩ := insertOutbox_ok inserted
  rw [same] at insertable ⊢
  obtain ⟨row, found', readActor⟩ := requireActor_ok_iff.mp owned
  have itself : row = a := Option.some.inj (found'.symm.trans found)
  subst itself
  have lease : ∃ ms, row.leaseUntilMs = some ms ∧ now.millis ≤ ms := by
    have reads := (rowToActor_reads readActor).leaseUntil
    rcases parseTimestampOption_ok_iff.mp reads with ⟨_, none⟩ | ⟨ms, t, some, same, parsed⟩
    · simp [none] at hasLease
    · rw [same] at hasLease
      cases hasLease
      refine ⟨ms, some, ?_⟩
      have early := DateTime.lt_def.mp early
      rw [DateTime.nanos_of_ofMillis parsed] at early
      unfold DateTime.millis
      omega
  refine .advance current.toTurnRow next _ _ leaseOwner now
    { found := loaded.found, legal, result := by simp [complete], monotone
      leased := ⟨row, found, by simp only [Bool.and_eq_true,decide_eq_true_eq] at held; exact held.1,
        fun _ => lease⟩
      reads := ⟨_, read⟩, insertable := ⟨insertable.key, insertable.revision, insertable.bound,
        insertable.installed⟩ } clock

theorem compareAndTransitionTurn_step {tenantId turnId leaseOwner : String} {expectedState : TurnState}
    {expectedRevision : Nat} {next : TurnState} {now : DateTime} {record : DurableTurnRecord}
    (clock : limits.clock now)
    (done : compareAndTransitionTurn host tenantId turnId leaseOwner expectedState expectedRevision next
      now db = .ok (db', record)) : TurnStep host limits db db' := by
  simp only [compareAndTransitionTurn,bind_ok_iff,ensure_ok_iff] at done
  obtain ⟨_, live, done⟩ := done
  exact transitionInner_step (by simp [live]) clock done

theorem compareAndTransitionWithResult_step {tenantId turnId leaseOwner : String}
    {expectedState : TurnState} {expectedRevision : Nat} {next : TurnState} {terminalResult : TurnExecution}
    {now : DateTime} {record : DurableTurnRecord} (clock : limits.clock now)
    (done : compareAndTransitionWithResult host tenantId turnId leaseOwner expectedState expectedRevision
      next terminalResult now db = .ok (db', record)) : TurnStep host limits db db' := by
  simp only [compareAndTransitionWithResult,bind_ok_iff,ensure_ok_iff] at done
  obtain ⟨_, terminal, _, _, done⟩ := done
  exact transitionInner_step (by simp [terminal]) clock done

theorem approveTurn_step {tenantId turnId : String} {now : DateTime} {record : DurableTurnRecord}
    (clock : limits.clock now) (done : approveTurn host tenantId turnId now db = .ok (db', record)) :
    TurnStep host limits db db' := by
  simp only [approveTurn,bind_ok_iff] at done
  obtain ⟨_, _, _, _, _, _, _, _, _, _, done⟩ := done
  exact compareAndTransitionTurn_step clock done

theorem recoverActors_steps {tenantId : String} {now : DateTime} {actors : List (String × String)}
    {records : List DurableTurnRecord} (clock : limits.clock now)
    (done : recoverActors host tenantId now actors db = .ok (db', records)) : TurnSteps host limits db db' := by
  induction actors generalizing db records with
  | nil =>
    cases done
    exact .refl
  | cons actor actors ih =>
    simp only [recoverActors,bind_ok_iff,Except.ok.injEq,Prod.mk.injEq] at done
    obtain ⟨_, loaded, _, _, recovered, first, others, rest, rfl, _⟩ := done
    have step : TurnStep host limits db recovered.1 :=
      recoverTurnInTx_step (requireTurn_loaded loaded).1 clock first
    exact (Relation.ReflTransGen.single step).trans (ih rest)

end Zaion.Turn
