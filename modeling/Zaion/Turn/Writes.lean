import Zaion.Turn.Run

/-! Writes that succeed. On a sound store the insert of an outbox row, the end of an expired
turn and the admission of a new one fail only for a reason that can be named. -/
namespace Zaion.Turn

open Lib

variable {host : Host} {limits : Limits} {db : Database}

theorem Installed.triggers_ok (installed : Installed host db.schema db.migrations) :
    validateNoExtraOutboxTriggers db = .ok () := by
  obtain ⟨schema, a, b, c, d, migrations⟩ := installed
  have carries : Carries host db installedObjects
      [(.order, a), (.orderGuard, b), (.quarantine, c), (.verifiedCommit, d)] := ⟨schema, migrations⟩
  have triggers : allTriggers ⊆ installedObjects := fun object _ => mem_installedObjects object
  rw [validateNoExtraOutboxTriggers,carries.validateSchemaObjects triggers,ok_bind,carries.allowlist]

/-- A store that holds a turn is installed. -/
theorem Sound.installed (sound : Sound host limits db) {t : TurnRow} (member : t ∈ db.turns) :
    Installed host db.schema db.migrations := by
  rcases sound.schema with ⟨_, _, noRows⟩ | installed
  · rw [sound.no_turns noRows] at member
    cases member
  · exact installed

theorem nextCommitOrdinal_ordered (ordered : Ordered db) (room : db.outbox.length < i64MaxNat) :
    nextCommitOrdinal db = .ok (db.outbox.length + 1) := by
  have maximum : (db.commitOrder.map OrderRow.commitOrdinal).max?.getD 0 = db.outbox.length := by
    rw [ordered.order,places_max]
  simp only [nextCommitOrdinal,ensure_of ordered.sequence,ok_bind,maximum,ensure_of room]

/-- What the insert of an outbox row needs. -/
theorem insertOutbox_writes {record : DurableTurnRecord} {previous : Option TurnState}
    {terminalHash : Option String} {now : DateTime} (ordered : Ordered db)
    (triggers : validateNoExtraOutboxTriggers db = .ok ()) (room : db.outbox.length < i64MaxNat)
    (bound : record.revision ≤ i64MaxNat)
    (fresh : ∀ o ∈ db.outbox, outboxKey o ≠ (record.toTurnRow.entry host previous terminalHash now).key)
    (unwritten : ∀ o ∈ db.outbox, ¬ (o.tenantId = record.tenantId ∧ o.turnId = record.turnId ∧
      o.revision = record.revision))
    (turn : ∃ t ∈ db.turns, t.key = (record.tenantId, record.turnId)) :
    insertOutbox host record previous terminalHash now db =
      .ok (db.appendEntry (record.toTurnRow.entry host previous terminalHash now)) := by
  have unplaced : ∀ c ∈ db.commitOrder,
      c.key ≠ (record.toTurnRow.entry host previous terminalHash now).key := by
    intro c member
    obtain ⟨i, o, position, rfl⟩ := mem_places.mp (ordered.order ▸ member)
    exact fresh o (List.mem_of_getElem? position)
  have placed := Ordered.append ordered fresh
  have position : (db.appendEntry (record.toTurnRow.entry host previous terminalHash now)).outbox[db.outbox.length]? =
      some (record.toTurnRow.entry host previous terminalHash now).pending := by
    simp [Database.appendEntry,insertOrder]
  have order := placed.select_order position
  simp only [insertOutbox,triggers,ok_bind,nextCommitOrdinal_ordered ordered room,parseTimestamp,
    DateTime.ofMillis_millis,required_some,revisionToI64,ensure_of bound,insertOutboxRow]
  rw [ensure_of,ok_bind,ensure_of,ok_bind,ensure_of,ok_bind,ensure_of,ok_bind,ok_bind,ensure_of,ok_bind]
  · rfl
  · exact congrArg (Option.map (fun c => (c.commitOrdinal, c.orderOrigin, c.legacySourceRowid))) order
  · exact unplaced
  · exact turn
  · exact unwritten
  · exact fresh

/-- A live turn that reads back still does once a result is written to it. -/
theorem materializeTurn_finished {row : TurnRow} {record : DurableTurnRecord} {execution : TurnExecution}
    {revision : Nat} {now : DateTime} (readsBack : host.ReadsBack) (plain : execution.toJson.plain = true)
    (terminal : execution.terminalState.isTerminal = true) (read : materializeTurn host row = .ok record) :
    ∃ finished, materializeTurn host (row.advanced execution.terminalState revision
      (some (host.toText execution.toJson)) (some (host.sha256Text (host.toText execution.toJson))) now) =
        .ok finished := by
  simp only [materializeTurn,bind_ok_iff] at read
  obtain ⟨_, request, _, authority, _, _, _, requestText, _, authorityText, _, bound, _, _, _, _, _, deadline, _,
    created, _, _, _⟩ := read
  have parsed : fromTextOption host (some (host.toText execution.toJson)) = .ok (some execution.toJson) := by
    simp [fromTextOption,fromText,readsBack _ plain,Functor.map,Except.map]
  have valid : validatePersistedTerminal execution.terminalState (some execution.toJson) = .ok () := by
    simp [validatePersistedTerminal,terminal]
  have hashed : ∀ json, verifyTerminalHash host (some json) (some (host.sha256Text json)) = .ok () :=
    fun json => ensure_of rfl
  have updated : parseTimestamp "updated_at_ms" now.millis = .ok now.floor := by simp [parseTimestamp]
  simp only [materializeTurn,TurnRow.advanced,request,authority,ok_bind,hashed,requestText,authorityText,bound,
    parsed,valid,deadline,created,updated]
  exact ⟨_, rfl⟩

theorem TablesSound.revision_le (sound : TablesSound host limits db) {t : TurnRow} (member : t ∈ db.turns)
    {o : OutboxRow} (inside : o ∈ db.outbox) (tenant : o.tenantId = t.tenantId) (turn : o.turnId = t.turnId) :
    o.revision ≤ t.revision := by
  have listed : o.revision ∈ (db.outbox.filter (fun o => o.toOutboxEntry.ofTurn t.toTurnCore)).map
      (fun o => o.revision) :=
    List.mem_map_of_mem (List.mem_filter.mpr ⟨inside, by simp [OutboxEntry.ofTurn,tenant,turn]⟩)
  rw [sound.revisions member,List.mem_range'_1] at listed
  omega

/-- A row was written when its turn entered a stage. -/
theorem TablesSound.stage (sound : TablesSound host limits db) {o : OutboxRow} (member : o ∈ db.outbox) :
    ∃ (t : TurnRow) (stage : Stage) (before : Option TurnState) (n : Nat), n ≤ i64MaxNat ∧
      o.toOutboxEntry = stage.entry host t.toTurnCore before n := by
  obtain ⟨t, known, stage, before, n, low, same⟩ := sound.recorded.written (List.mem_map_of_mem member)
  obtain ⟨_, life, _⟩ := sound.recorded.lives t known
  exact ⟨t, stage, before, n, low.trans life.bound, same⟩

/-- The id of a row is hashed from its own columns. -/
theorem TablesSound.outboxId (sound : TablesSound host limits db) {o : OutboxRow} (member : o ∈ db.outbox) :
    o.outboxId = deterministicOutboxId host o.tenantId o.turnId o.revision o.eventType := by
  obtain ⟨t, stage, before, n, _, same⟩ := sound.stage member
  rw [same]
  rfl

theorem TablesSound.revision_lt_length (sound : TablesSound host limits db) {t : TurnRow} (member : t ∈ db.turns) :
    t.revision < db.outbox.length := by
  have rows := congrArg List.length (sound.revisions member)
  rw [List.length_map,List.length_range'] at rows
  have := List.length_filter_le (fun o : OutboxRow => o.toOutboxEntry.ofTurn t.toTurnCore) db.outbox
  omega

theorem updateTurn_writes {turn : TurnRow} {next : TurnState} {revision : Nat}
    {terminalJson terminalHash : Option String} {now : DateTime}
    (found : Table.select TurnRow.key turn.key db.turns = some turn) :
    updateTurn turn next revision terminalJson terminalHash now db =
      .ok { db with turns := (Table.modify TurnRow.key turn.key
        (·.advanced next revision terminalJson terminalHash now) db.turns) } := by
  simp [updateTurn,Table.update,found]

theorem updateActor_writes {key : String × String} {cond : ActorRow → Bool} {f : ActorRow → ActorRow}
    {lost : TurnStoreError} {a : ActorRow} (found : Table.select ActorRow.key key db.actors = some a)
    (holds : cond a = true) :
    updateActor key cond f lost db = .ok { db with actors := Table.modify ActorRow.key key f db.actors } := by
  simp [updateActor,Table.update,found,holds]

/-- The row that recovery leaves of a live turn. -/
def TurnRow.recovered (host : Host) (row : TurnRow) (now : DateTime) : TurnRow :=
  row.advanced (recoveryExecution row.state).terminalState (row.revision + 1)
    (some (host.toText (recoveryExecution row.state).toJson))
    (some (host.sha256Text (host.toText (recoveryExecution row.state).toJson))) now

/-- The tables once recovery has ended a turn, its outbox row still to be written. -/
def Database.finish (host : Host) (row : TurnRow) (now : DateTime) (db : Database) : Database :=
  { db with
    turns := Table.modify TurnRow.key row.key (·.advanced (recoveryExecution row.state).terminalState
      (row.revision + 1) (some (host.toText (recoveryExecution row.state).toJson))
      (some (host.sha256Text (host.toText (recoveryExecution row.state).toJson))) now) db.turns
    actors := Table.modify ActorRow.key (row.tenantId, row.actorKey) (·.leaseTo none none none now) db.actors }

theorem finish_select {row : TurnRow} (now : DateTime)
    (found : Table.select TurnRow.key row.key db.turns = some row) :
    Table.select TurnRow.key row.key (db.finish host row now).turns = some (row.recovered host now) := by
  have selected : Table.select TurnRow.key row.key (Table.modify TurnRow.key row.key
      (·.advanced (recoveryExecution row.state).terminalState (row.revision + 1)
        (some (host.toText (recoveryExecution row.state).toJson))
        (some (host.sha256Text (host.toText (recoveryExecution row.state).toJson))) now) db.turns) =
      (Table.select TurnRow.key row.key db.turns).map _ :=
    Table.select_modify_self (fun _ same => same)
  rw [found] at selected
  exact selected

/-- Id of the outbox row that recovery of a live turn writes. -/
def TurnRow.recoveryId (host : Host) (row : TurnRow) : String :=
  deterministicOutboxId host row.tenantId row.turnId (row.revision + 1)
    (recoveryExecution row.state).terminalState.eventType

/-- The outbox row that recovery of a live turn writes. -/
def TurnRow.recoveryRow (host : Host) (row : TurnRow) (now : DateTime) : OutboxRow :=
  ((row.recovered host now).entry host (some row.state)
    (some (host.sha256Text (host.toText (recoveryExecution row.state).toJson))) now).pending

theorem recoveryExecution_plain (state : TurnState) : (recoveryExecution state).toJson.plain = true := by
  cases state <;> decide

/-- Recovery writes its outbox row: the revision is the next one, and the id is free. -/
theorem finish_inserts {row : TurnRow} {now : DateTime} {recovered : DurableTurnRecord}
    (sound : Sound host limits db) (found : Table.select TurnRow.key row.key db.turns = some row)
    (columns : recovered.toTurnRow = row.recovered host now) (room : db.outbox.length < i64MaxNat)
    (free : ∀ o ∈ db.outbox, outboxKey o ≠ (row.tenantId, row.recoveryId host)) :
    ∃ db', insertOutbox host recovered (some row.state)
      (some (host.sha256Text (host.toText (recoveryExecution row.state).toJson))) now (db.finish host row now) =
        .ok db' ∧ db'.turns = (db.finish host row now).turns ∧ db'.actors = (db.finish host row now).actors ∧
      db'.outbox = db.outbox ++ [row.recoveryRow host now] := by
  have member := Table.mem_of_select found
  have small := sound.revision_lt_length member
  refine ⟨_, insertOutbox_writes (sound.ordered.frame rfl rfl rfl) ?_ room ?_ ?_ ?_ ?_, rfl, rfl, ?_⟩
  · apply Installed.triggers_ok
    exact sound.installed member
  · rw [columns]
    exact Nat.succ_le_of_lt (small.trans room)
  · rw [columns]
    exact free
  · rintro o inside ⟨tenant, turn, revision⟩
    rw [columns] at tenant turn revision
    have low := sound.revision_le member inside tenant turn
    rw [revision] at low
    exact absurd low (Nat.not_succ_le_self _)
  · rw [columns]
    exact ⟨_, Table.mem_of_select (finish_select now found), rfl⟩
  · rw [columns]
    rfl

/-- Recovery of a turn past its deadline ends the turn and frees its actor. -/
structure Recovers (host : Host) (db : Database) (row : TurnRow) (now : DateTime) (db' : Database)
    (recovered : DurableTurnRecord) : Prop where
  columns : recovered.toTurnRow = row.recovered host now
  turn : recovered.toTurnRow ∈ db'.turns
  actor : ∃ a ∈ db'.actors, a.key = (row.tenantId, row.actorKey) ∧ a.activeTurnId = none
  turns : db'.turns = (db.finish host row now).turns
  actors : db'.actors = (db.finish host row now).actors
  outbox : db'.outbox = db.outbox ++ [row.recoveryRow host now]

theorem recoverTurnInTx_recovers {record : DurableTurnRecord} {now : DateTime} (readsBack : host.ReadsBack)
    (sound : Sound host limits db) (loaded : Loaded host db record) (live : record.state.isTerminal = false)
    (expired : record.deadlineMs ≤ now.millis) (room : db.outbox.length < i64MaxNat)
    (free : ∀ o ∈ db.outbox, outboxKey o ≠ (record.tenantId, record.toTurnRow.recoveryId host)) :
    ∃ db' recovered, recoverTurnInTx host record now db = .ok (db', recovered) ∧
      Recovers host db record.toTurnRow now db' recovered := by
  have member := Table.mem_of_select loaded.found
  have monotone : record.updatedAt ≤ now :=
    (DateTime.ofMillis_le_iff (materializeTurn_reads loaded.read).updatedAt).mpr
      ((sound.exclusive.inTime _ member live).trans expired)
  have legal := recovery_legal live
  have bound : record.revision + 1 ≤ i64MaxNat := (sound.revision_lt_length member).trans room
  have moved := compareAndTransition_self legal.1 (show record.revision < u64Max by
    unfold i64MaxNat at bound
    unfold u64Max
    omega)
  obtain ⟨a, actor, key, active⟩ := sound.exclusive.live _ member live
  have held : Table.select ActorRow.key (record.tenantId, record.actorKey) db.actors = some a :=
    sound.exclusive.actorKeys.select_iff.mpr ⟨actor, key⟩
  obtain ⟨recovered, read⟩ : ∃ recovered, materializeTurn host (record.toTurnRow.recovered host now) =
      .ok recovered :=
    materializeTurn_finished readsBack (recoveryExecution_plain record.state) legal.2 loaded.read
  have columns := (materializeTurn_reads read).columns
  have selected : Table.select TurnRow.key record.key (db.finish host record.toTurnRow now).turns =
      some (record.toTurnRow.recovered host now) := finish_select now loaded.found
  have reloaded : requireTurn host (db.finish host record.toTurnRow now) record.tenantId record.turnId =
      .ok recovered := requireTurn_ok_iff.mpr ⟨_, selected, read⟩
  obtain ⟨db', inserted, turns, actors, outbox⟩ := finish_inserts sound loaded.found columns room free
  have updated : updateTurn record.toTurnRow (recoveryExecution record.state).terminalState (record.revision + 1)
      (some (host.toText (recoveryExecution record.state).toJson))
      (some (host.sha256Text (host.toText (recoveryExecution record.state).toJson))) now db =
        .ok { db with turns := (db.finish host record.toTurnRow now).turns } := updateTurn_writes loaded.found
  have cleared : clearActor record.toTurnRow now { db with turns := (db.finish host record.toTurnRow now).turns } =
      .ok (db.finish host record.toTurnRow now) :=
    updateActor_writes held (by simpa using active)
  refine ⟨db', recovered, ?_, columns, ?_, ?_, turns, actors, outbox⟩
  · rw [recoverTurnInTx,ensure_of monotone,ok_bind,if_neg (by simp [live])]
    simp only [moved,Except.mapError,ok_bind,revisionToI64,ensure_of bound,updated,cleared,reloaded,inserted]
  · rw [turns,columns]
    exact Table.mem_of_select selected
  · rw [actors]
    exact ⟨_, Table.mem_modify.mpr (Or.inl ⟨a, actor, key, rfl⟩), key, rfl⟩

/-- A turn reads back as it is admitted. -/
theorem admittedTurn_reads {ingress : AuthenticatedIngress} {admission : DurableTurnAdmission} {now : DateTime}
    (readsBack : host.ReadsBack) (deadlines : host.DeadlineReadsBack) (plain : admission.request.plain = true)
    (year : ingress.deadline.FourDigitYear) :
    ∃ record, materializeTurn host (admittedTurn host ingress admission now) = .ok record := by
  obtain ⟨deadline, parsed, millis⟩ := deadlines _ year
  have bound : verifyTurnBindings host (admittedTurn host ingress admission now).toTurnCore (ingress.toJson host) =
      .ok () := by
    simp only [verifyTurnBindings,TurnCore.bindings,checkAll,verifyJsonTextBinding,textAt_cons_self,textAt_cons_other,
      textAt_str,ne_eq,String.reduceEq,not_false_eq_true,ensure_of,ok_bind,AuthenticatedIngress.toJson,admittedTurn]
    simp [parsed,millis]
  have live : validatePersistedTerminal (admittedTurn host ingress admission now).state none = .ok () := by
    rw [admittedTurn_state]
    cases admission.approvalRequired <;> rfl
  have request : fromText host (host.toText admission.request) = .ok admission.request := by
    simp [fromText,readsBack _ plain]
  have authority : fromText host (host.toText (ingress.toJson host)) = .ok (ingress.toJson host) := by
    simp [fromText,readsBack _ (ingress.toJson_plain host)]
  have timed : ∀ field (t : DateTime), parseTimestamp field t.millis = .ok t.floor := by simp [parseTimestamp]
  simp only [materializeTurn,bind_ok_iff]
  exact ⟨_, (), ensure_of rfl, (), ensure_of rfl, (), rfl, _, request, _, authority, (), bound, none, rfl, (), live,
    _, timed _ ingress.deadline, _, timed _ now, _, timed _ now, rfl⟩

/-- The tables once a turn is written and leased, its outbox row still to be written. -/
def Database.lease (turn : TurnRow) (owner : String) (now : DateTime) (db : Database) : Database :=
  { db with
    turns := db.turns ++ [turn]
    actors := Table.modify ActorRow.key (turn.tenantId, turn.actorKey)
      (·.leaseTo (some turn.turnId) (some owner) (some turn.deadlineMs) now) db.actors }

theorem admitTurn_admits {turn : TurnRow} {owner : String} {now : DateTime} {record : DurableTurnRecord}
    (ordered : Ordered db) (triggers : validateNoExtraOutboxTriggers db = .ok ())
    (room : db.outbox.length < i64MaxNat) (fresh : ∀ t ∈ db.turns, t.key ≠ turn.key)
    (unused : ∀ t ∈ db.turns, t.admission ≠ turn.admission)
    (idle : ∃ a, Table.select ActorRow.key (turn.tenantId, turn.actorKey) db.actors = some a ∧
      a.activeTurnId = none)
    (read : materializeTurn host turn = .ok record) (bound : turn.revision ≤ i64MaxNat)
    (free : ∀ o ∈ db.outbox, outboxKey o ≠ (turn.entry host none none now).key)
    (unwritten : ∀ o ∈ db.outbox, ¬ (o.tenantId = turn.tenantId ∧ o.turnId = turn.turnId ∧
      o.revision = turn.revision)) :
    admitTurn host turn owner now db = .ok (db.admitRow host turn owner now, record) := by
  obtain ⟨a, found, none⟩ := idle
  have columns := (materializeTurn_reads read).columns
  have known : ∃ a ∈ db.actors, a.key = (turn.tenantId, turn.actorKey) :=
    ⟨a, Table.mem_of_select found, Table.key_of_select found⟩
  have leased : updateActor (turn.tenantId, turn.actorKey) (fun a => a.activeTurnId = Option.none)
      (·.leaseTo (some turn.turnId) (some owner) (some turn.deadlineMs) now) .casLost
      { db with turns := db.turns ++ [turn] } = .ok (db.lease turn owner now) :=
    updateActor_writes found (by simpa using none)
  have reloaded : requireTurn host (db.lease turn owner now) turn.tenantId turn.turnId = .ok record :=
    requireTurn_ok_iff.mpr ⟨turn, Table.select_append_new fresh, read⟩
  have inserted : insertOutbox host record Option.none Option.none now (db.lease turn owner now) =
      .ok (db.admitRow host turn owner now) := by
    subst columns
    apply insertOutbox_writes
    · exact ordered.frame rfl rfl rfl
    · exact triggers
    · exact room
    · exact bound
    · exact free
    · exact unwritten
    · exact ⟨record.toTurnRow, List.mem_append_right _ List.mem_cons_self, rfl⟩
  simp only [admitTurn,insertTurn,ensure_of fresh,ensure_of unused,ensure_of known,ok_bind,leased,reloaded,inserted]

/-- The row of a new actor reads back. -/
theorem requireActor_new {actor : TurnActorIdentity} {now : DateTime} {missing : TurnStoreError}
    (only : db.actors = [actor.row now]) :
    ∃ a, requireActor db actor.tenantId actor.actorKey missing = .ok a ∧ a.toActorRow = actor.row now := by
  have found : Table.select ActorRow.key (actor.tenantId, actor.actorKey) db.actors = some (actor.row now) := by
    simp [only,Table.select,TurnActorIdentity.row,ActorRow.key]
  have readable : rowToActor (actor.row now) = .ok
      { actor.row now with leaseUntil := none, createdAt := now.floor, updatedAt := now.floor } := by
    simp [rowToActor,readActor,TurnActorIdentity.row,parseTimestampOption,parseTimestamp,Except.mapError]
  exact ⟨_, requireActor_ok_iff.mpr ⟨_, found, readable⟩, rfl⟩

/-- The first request on an open store is admitted. -/
theorem beginTurn_first {ingress : AuthenticatedIngress} {admission : DurableTurnAdmission} {now : DateTime}
    {record : DurableTurnRecord} (ordered : Ordered db) (triggers : validateNoExtraOutboxTriggers db = .ok ())
    (noTurns : db.turns = []) (noActors : db.actors = []) (noRows : db.outbox = [])
    (authority : actorMatches ingress admission.actor) (early : now < ingress.deadline)
    (read : materializeTurn host (admittedTurn host ingress admission now) = .ok record) :
    ∃ db', beginTurn host ingress admission now db = .ok (db', .created record) ∧
      db'.turns = [admittedTurn host ingress admission now] ∧
      db'.outbox = [((admittedTurn host ingress admission now).entry host none none now).pending] := by
  have lookup : loadByIdempotency host db ingress.tenantId ingress.idempotencyKey = .ok none := by
    simp [loadByIdempotency,noTurns,Table.select]
  have known : insertActor admission.actor now db = { db with actors := [admission.actor.row now] } := by
    simp [insertActor,noActors]
  obtain ⟨a, loads, row⟩ : ∃ a, requireActor { db with actors := [admission.actor.row now] }
      admission.actor.tenantId admission.actor.actorKey .actorAuthorityMismatch = .ok a ∧
        a.toActorRow = admission.actor.row now := requireActor_new rfl
  have ensured : ensureActorRow admission.actor now db = .ok { db with actors := [admission.actor.row now] } := by
    have identified : admission.actor.identifies a.toActorRow := by
      rw [row]
      exact ⟨rfl, rfl, rfl, rfl, rfl⟩
    simp only [ensureActorRow,known,loads,ok_bind,ensure_of identified]
  have freed : recoverActorForAdmission host admission.actor now { db with actors := [admission.actor.row now] } =
      .ok { db with actors := [admission.actor.row now] } := by
    have idle : a.activeTurnId = none := by
      rw [row]
      rfl
    simp only [recoverActorForAdmission,loads,ok_bind,idle]
  have admitted : admitTurn host (admittedTurn host ingress admission now) admission.leaseOwner now
      { db with actors := [admission.actor.row now] } =
        .ok (Database.admitRow host (admittedTurn host ingress admission now) admission.leaseOwner now
          { db with actors := [admission.actor.row now] }, record) := by
    apply admitTurn_admits
    · exact ordered.frame rfl rfl rfl
    · exact triggers
    · simp [noRows,i64MaxNat]
    · simp [noTurns]
    · simp [noTurns]
    · refine ⟨admission.actor.row now, ?_, rfl⟩
      simp [Table.select,TurnActorIdentity.row,ActorRow.key,admittedTurn,authority.1]
    · exact read
    · exact Nat.zero_le _
    · simp [noRows]
    · simp [noRows]
  refine ⟨Database.admitRow host (admittedTurn host ingress admission now) admission.leaseOwner now
    { db with actors := [admission.actor.row now] }, ?_, ?_, ?_⟩
  · simp only [beginTurn,ensure_of authority,ok_bind,lookup,ensure_of early,ensured,freed,admitted]
  · simp [Database.admitRow,Database.appendEntry,insertOrder,noTurns]
  · simp [Database.admitRow,Database.appendEntry,insertOrder,noRows]

/-- Opening a new file and admitting a request: one turn, one outbox row. -/
theorem run_first {ingress : AuthenticatedIngress} {admission : DurableTurnAdmission} {now : DateTime}
    {record : DurableTurnRecord} (path instanceId : String) (orderAt quarantineAt verifiedAt : DateTime)
    (authority : actorMatches ingress admission.actor) (early : now < ingress.deadline)
    (read : materializeTurn host (admittedTurn host ingress admission now) = .ok record) :
    (run host (Database.created path instanceId)
      [.reopen orderAt quarantineAt verifiedAt, .beginTurn ingress admission now]).turns =
        [admittedTurn host ingress admission now] ∧
    (run host (Database.created path instanceId)
      [.reopen orderAt quarantineAt verifiedAt, .beginTurn ingress admission now]).outbox =
        [((admittedTurn host ingress admission now).entry host none none now).pending] := by
  have sound : Sound host unlimited (Database.created path instanceId) := .created path instanceId
  obtain ⟨schema, migrations, installed, opens⟩ :=
    openStore_new orderAt quarantineAt verifiedAt sound.toTablesSound ⟨rfl, rfl⟩ rfl
  have opened : Sound host unlimited { Database.created path instanceId with schema, migrations } :=
    sound.step (.migrate schema migrations rfl installed)
  obtain ⟨db', begun, turns, outbox⟩ := beginTurn_first opened.ordered
    (Installed.triggers_ok installed) rfl rfl rfl authority early read
  have result : run host (Database.created path instanceId)
      [.reopen orderAt quarantineAt verifiedAt, .beginTurn ingress admission now] = db' := by
    simp only [run_cons,run_nil,Op.apply,Op.exec,opens,begun,Functor.map,Except.map]
  rw [result]
  exact ⟨turns, outbox⟩

end Zaion.Turn
