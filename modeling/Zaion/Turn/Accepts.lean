import Zaion.Lib.Utf8
import Zaion.Turn.Admission

/-! What the store writes, the dispatcher's validator accepts: every row of the outbox reads back,
and the rows of a turn that began as accepted pass as its history. A turn that began waiting for
approval does not pass. -/
namespace Zaion.Turn

open Lib Ledger

variable {host : Host} {limits : Limits} {db db' : Database}

/-- The payload of the row that entering a stage writes. -/
def Stage.payload (host : Host) (stage : Stage) (turn : TurnCore) (previous : Option TurnState) (revision : Nat) : Json :=
  turnPayload turn (deterministicOutboxId host turn.tenantId turn.turnId revision stage.state.eventType) previous
    stage.state revision stage.terminalHash (host.rfc3339Millis stage.time.floor)

theorem turnPayload_plain (turn : TurnCore) (outboxId : String) (previous : Option TurnState) (state : TurnState)
    {revision : Nat} (terminalHash : Option String) (occurredAt : String) (bound : revision ≤ i64MaxNat) :
    (turnPayload turn outboxId previous state revision terminalHash occurredAt).plain = true := by
  have small : revision < 18446744073709551616 := by
    unfold i64MaxNat at bound
    omega
  cases previous <;> cases terminalHash <;>
    simp [turnPayload,Json.plain,Json.ofOption,Json.nat,Json.exact,Json.exactFields,Json.depth,Json.depthFields,small]

/-- The columns of an entry and its payload agree. -/
structure Told (host : Host) (entry : OutboxEntry) (payload : Json) : Prop where
  hashed : verifyStoredHash host "outbox_payload_hash" entry.payloadJson entry.payloadHash = .ok ()
  parsed : fromText host entry.payloadJson = .ok payload
  bound : verifyOutboxBindings host entry payload = .ok ()
  created : ∃ t, DateTime.ofMillis? entry.createdAtMs = some t

theorem Stage.told (stage : Stage) {turn : TurnCore} {previous : Option TurnState} {revision : Nat}
    (readsBack : host.ReadsBack) (bound : revision ≤ i64MaxNat) :
    Told host (stage.entry host turn previous revision) (stage.payload host turn previous revision) where
  hashed := ensure_of rfl
  parsed := by
    have plain := turnPayload_plain turn (deterministicOutboxId host turn.tenantId turn.turnId revision
      stage.state.eventType) previous stage.state stage.terminalHash (host.rfc3339Millis stage.time.floor) bound
    simp [fromText,Stage.entry,Stage.payload,OutboxEntry.written,readsBack _ plain]
  bound := by
    simp [verifyOutboxBindings,verifyJsonTextBinding,Stage.entry,Stage.payload,OutboxEntry.written,turnPayload,Json.textAt,
      Json.pointer,Json.get,Json.lookup,Json.asStr,Json.asU64,Json.nat,outboxEventTypeMatches,TurnState.eventType]
  created := ⟨stage.time.floor, by simp [Stage.entry,OutboxEntry.written]⟩

/-- Every row of the outbox reads back. -/
def Legible (host : Host) (db : Database) : Prop := ∀ o ∈ db.outbox, ∃ record, selectOutbox host db o = .ok (some record)

/-- A row is read with its own order and its own evidence. -/
theorem selectOutbox_congr {row : OutboxRow}
    (order : Table.select OrderRow.key row.key db'.commitOrder = Table.select OrderRow.key row.key db.commitOrder)
    (evidence : Table.select EvidenceRow.key row.key db'.verifiedCommits = Table.select EvidenceRow.key row.key db.verifiedCommits) :
    selectOutbox host db' row = selectOutbox host db row := by
  simp only [selectOutbox,order,evidence]

theorem Legible.frame (legible : Legible host db) (outbox : db'.outbox = db.outbox) (order : db'.commitOrder = db.commitOrder)
    (evidence : db'.verifiedCommits = db.verifiedCommits) : Legible host db' := by
  intro o member
  obtain ⟨record, read⟩ := legible o (outbox ▸ member)
  exact ⟨record, (selectOutbox_congr (by rw [order]) (by rw [evidence])).trans read⟩

/-- One row changes and reads back. -/
theorem Legible.touch {key : String × String} (legible : Legible host db) (keyed : Table.Keyed outboxKey db'.outbox)
    (others : ∀ o ∈ db'.outbox, o.key ≠ key → o ∈ db.outbox) (order : db'.commitOrder = db.commitOrder)
    (evidence : ∀ other ≠ key, Table.select EvidenceRow.key other db'.verifiedCommits =
      Table.select EvidenceRow.key other db.verifiedCommits)
    (readable : Readable host db' key) : Legible host db' := by
  intro o member
  by_cases own : o.key = key
  · obtain ⟨record, read⟩ := readable
    obtain ⟨row, found, read⟩ := requireOutbox_ok_iff.mp read
    have selected : Table.select outboxKey key db'.outbox = some o := by
      rw [← own]
      exact keyed.select_mem member
    obtain rfl := Option.some.inj (found.symm.trans selected)
    exact ⟨record, read⟩
  · obtain ⟨record, read⟩ := legible o (others o member own)
    exact ⟨record, (selectOutbox_congr (by rw [order]) (evidence _ own)).trans read⟩

theorem mem_setOutbox {key : String × String} {f : OutboxRow → OutboxRow} (kept : ∀ o, (f o).toOutboxEntry = o.toOutboxEntry) :
    ∀ o ∈ (db.setOutbox key f).outbox, o.key ≠ key → o ∈ db.outbox := by
  intro o member other
  rcases Table.mem_modify.mp member with ⟨s, _, same, rfl⟩ | ⟨old, _⟩
  · rw [kept] at other
    exact absurd same other
  · exact old

/-- A new row is read as pending, without evidence. -/
theorem Told.reads {entry : OutboxEntry} {payload : Json} {order : OrderRow} (told : Told host entry payload)
    (placed : order.commitOrdinal ≠ 0) : ∃ record, materializeOutbox host entry.pending order none = .ok record := by
  obtain ⟨created, parsed⟩ := told.created
  have status : validateOutboxStatusBindings entry.pending none = .ok () := by
    simp [validateOutboxStatusBindings,OutboxEntry.pending,OutboxRow.shapeMatches,OutboxRow.evidenceMatches,
      OutboxRow.timestampsOrdered]
  have time : ∀ field, parseTimestamp field entry.createdAtMs = .ok created := by
    intro field
    rw [parseTimestamp,parsed,required_some]
  have hashed : verifyStoredHash host "outbox_payload_hash" entry.pending.payloadJson entry.pending.payloadHash = .ok () :=
    told.hashed
  have text : fromText host entry.pending.payloadJson = .ok payload := told.parsed
  have bound : verifyOutboxBindings host entry.pending.toOutboxEntry payload = .ok () := told.bound
  simp only [materializeOutbox,hashed,text,bound,status,ok_bind,ensure_of placed]
  simp only [OutboxEntry.pending,time,parseTimestampOption,ok_bind]
  exact ⟨_, rfl⟩

theorem Legible.append {entry : OutboxEntry} {payload : Json} (legible : Legible host db) (ordered : Ordered db)
    (fresh : ∀ o ∈ db.outbox, outboxKey o ≠ entry.key) (unproved : ∀ v ∈ db.verifiedCommits, v.key ≠ entry.key)
    (told : Told host entry payload) : Legible host (db.appendEntry entry) := by
  have ordered' := ordered.append fresh
  intro o member
  rcases List.mem_append.mp member with old | new
  · obtain ⟨j, earlier⟩ := List.getElem?_of_mem old
    obtain ⟨record, read⟩ := legible o old
    have same : (db.appendEntry entry).outbox[j]? = some o :=
      List.getElem?_append_left (List.getElem?_eq_some_iff.mp earlier).1 ▸ earlier
    have placed : Table.select OrderRow.key o.key (db.appendEntry entry).commitOrder =
        Table.select OrderRow.key o.key db.commitOrder :=
      (ordered'.select_order same).trans (ordered.select_order earlier).symm
    exact ⟨record, (selectOutbox_congr placed rfl).trans read⟩
  · obtain rfl := List.mem_singleton.mp new
    have position : (db.appendEntry entry).outbox[db.outbox.length]? = some entry.pending := by
      simp [Database.appendEntry,insertOrder]
    have placed := ordered'.select_order position
    have none : Table.select EvidenceRow.key entry.pending.key (db.appendEntry entry).verifiedCommits = none :=
      Table.select_none_iff.mpr unproved
    have ordinal : (place (db.outbox.length + 1) entry.pending.toOutboxEntry).commitOrdinal ≠ 0 := Nat.succ_ne_zero _
    obtain ⟨record, read⟩ := told.reads ordinal
    refine ⟨record, ?_⟩
    simp only [selectOutbox,placed,none]
    rw [map_ok_iff]
    exact ⟨record, read, rfl⟩

/-- The evidence there is belongs to rows there are. -/
theorem Delivery.unproved (delivery : Delivery host db) {entry : OutboxEntry}
    (fresh : ∀ o ∈ db.outbox, outboxKey o ≠ entry.key) : ∀ v ∈ db.verifiedCommits, v.key ≠ entry.key := by
  intro v member same
  obtain ⟨o, inside, of⟩ := delivery.evidence v member
  exact fresh o inside (of.key.trans same)

theorem Legible.turnStep (readsBack : host.ReadsBack) (legible : Legible host db) (sound : Sound host limits db)
    (step : TurnStep host limits db db') : Legible host db' := by
  cases step with
  | admitRow turn owner now admission =>
    have told : Told host (turn.entry host none none now) _ :=
      Stage.told ⟨turn.state, none, now⟩ readsBack admission.insertable.bound
    exact Legible.append (legible.frame rfl rfl rfl) (sound.ordered.frame rfl rfl rfl) admission.insertable.key
      (sound.delivery.unproved admission.insertable.key) told
  | advance row next terminalJson terminalHash owner now advance =>
    have told : Told host ((row.advanced next (row.revision + 1) terminalJson terminalHash now).entry host (some row.state)
        terminalHash now) _ :=
      Stage.told ⟨next, terminalHash, now⟩ readsBack advance.insertable.bound
    exact Legible.append (legible.frame rfl rfl rfl) (sound.ordered.frame rfl rfl rfl) advance.insertable.key
      (sound.delivery.unproved advance.insertable.key) told
  | addActor | clear => exact legible.frame rfl rfl rfl

theorem Legible.step (readsBack : host.ReadsBack) (legible : Legible host db) (sound : Sound host limits db)
    (step : Step host limits db db') : Legible host db' := by
  have keyed := (sound.step step).ordered.keyed
  cases step with
  | turn step => exact legible.turnStep readsBack sound step
  | claim i row owner token untilMs now head free available claimable readable =>
    exact legible.touch keyed (mem_setOutbox fun _ => rfl) rfl (fun _ _ => rfl) readable
  | renew i row owner token untilMs now head free held readable =>
    exact legible.touch keyed (mem_setOutbox fun _ => rfl) rfl (fun _ _ => rfl) readable
  | release i row owner token now availableAt error head held readable =>
    exact legible.touch keyed (mem_setOutbox fun _ => rfl) rfl (fun _ _ => rfl) readable
  | quarantine i row q owner token now error head held quarantines readable =>
    exact legible.touch keyed (mem_setOutbox fun _ => rfl) rfl (fun _ _ => rfl) readable
  | deliver i row v owner token now head held fresh verified readable =>
    refine legible.touch keyed (mem_setOutbox fun _ => rfl) rfl (fun other apart => ?_) readable
    apply Table.select_append_of_ne
    intro same
    exact apart (same.symm.trans verified.key)
  | repair row v member status key fresh =>
    obtain ⟨w, inside, same⟩ := (sound.delivery.delivered row member status).evidence
    exact absurd (same.trans key.symm) (fresh w inside)
  | ledger | migrate => exact legible.frame rfl rfl rfl

theorem Sound.run_legible {ops : List Op} (readsBack : host.ReadsBack) (sound : Sound host limits db) (legible : Legible host db)
    (within : RunWithin host limits db ops) : Legible host (Turn.run host db ops) := by
  have keeps : ∀ {a b}, Sound host limits a ∧ Legible host a → Step host limits a b → Sound host limits b ∧ Legible host b :=
    fun both step => ⟨both.1.step step, both.2.step readsBack both.1 step⟩
  exact (sound.run_keeps within keeps ⟨sound, legible⟩).2

/-- A record read back from the row of a stage. -/
structure Tells (host : Host) (turn : TurnCore) (stage : Stage) (previous : Option TurnState) (revision : Nat)
    (record : TurnOutboxRecord) : Prop where
  entry : record.toOutboxEntry = stage.entry host turn previous revision
  payload : record.payload = stage.payload host turn previous revision
  createdAt : record.createdAt = stage.time.floor
  event : record.status = .delivered →
    record.ledgerEventId = some (deterministicIdempotentEventId host turn.principalId record.outboxId)

section

variable {turn : TurnCore} {stage : Stage} {previous : Option TurnState} {revision : Nat} {record : TurnOutboxRecord}
  (tells : Tells host turn stage previous revision record)
include tells

theorem Tells.shape : validateOutboxPayloadShape record.payload = .ok () := by
  rw [tells.payload]
  simp [validateOutboxPayloadShape,Stage.payload,turnPayload,hasFields,payloadFields,Json.asObject,Json.lookup]

theorem Tells.identity (clock : host.ClockReadsBack) (year : stage.time.FourDigitYear) : validateOutboxIdentity host record turn = .ok () := by
  have year : stage.time.floor.FourDigitYear := by
    obtain ⟨low, high⟩ := year
    simp only [DateTime.FourDigitYear,DateTime.floor]
    omega
  have parsed : host.parseRfc3339 (host.rfc3339Millis stage.time.floor) = some stage.time.floor := by
    rw [clock _ year,DateTime.floor_floor]
  have effect : record.effectKind = "ledger_turn_state" := by rw [tells.entry]; rfl
  have mode : record.idempotencyMode = "key_required" := by rw [tells.entry]; rfl
  have occurred : record.payload.textAt ["occurred_at"] = some (host.rfc3339Millis stage.time.floor) := by
    rw [tells.payload]
    simp [Stage.payload,turnPayload,Json.textAt,Json.pointer,Json.get,Json.lookup,Json.asStr]
  have bound : checkAll (fun b => verifyJsonTextBinding record.payload b.2.1 b.2.2 b.1) turn.outboxBindings = .ok () := by
    rw [tells.payload]
    simp only [checkAll,TurnCore.outboxBindings,verifyJsonTextBinding,Stage.payload,turnPayload,textAt_cons_self,
      textAt_cons_other,textAt_str,ne_eq,String.reduceEq,not_false_eq_true,ensure_of,ok_bind]
  simp only [validateOutboxIdentity,tells.shape,bound,ok_bind,ensure_of effect,ensure_of mode,occurred,required_some,parsed]
  simp [tells.createdAt]

theorem Tells.state : outboxPayloadState record = .ok stage.state := by
  have text : record.payload.textAt ["state"] = some stage.state.name := by
    rw [tells.payload]
    simp [Stage.payload,turnPayload,Json.textAt,Json.pointer,Json.get,Json.lookup,Json.asStr]
  simp [outboxPayloadState,text]

theorem Tells.revision_eq : record.revision = revision := by
  rw [tells.entry]
  rfl

end

theorem tokenByte_lowerHex {c : Char} (lower : isLowerHex c = true) : tokenByte (UInt8.ofNat c.toNat) = true := by
  simp only [isLowerHex,Bool.or_eq_true,Bool.and_eq_true,decide_eq_true_eq] at lower
  have small : c.toNat ≤ 102 := by omega
  have digit : 48 ≤ c.toNat := by omega
  generalize c.toNat = n at *
  interval_cases n <;> first | rfl | omega

/-- Ids made of a digest are keys the ledger accepts. -/
theorem outboxId_valid (hex : host.DigestIsHex) (tenantId turnId : String) (revision : Nat) (eventType : String) :
    validIdempotencyKey (deterministicOutboxId host tenantId turnId revision eventType) = true := by
  obtain ⟨length, lower⟩ := hex (Host.framed [tenantId, turnId, toString revision, eventType])
  have digits : ∀ c ∈ (host.sha256Hex (Host.framed [tenantId, turnId, toString revision, eventType])).toList.take 40,
      isLowerHex c = true := fun c member => lower c (List.mem_of_mem_take member)
  have ascii : ∀ c ∈ (host.sha256Hex (Host.framed [tenantId, turnId, toString revision, eventType])).toList.take 40,
      c.toNat < 128 := by
    intro c member
    have digit := digits c member
    simp only [isLowerHex,Bool.or_eq_true,Bool.and_eq_true,decide_eq_true_eq] at digit
    omega
  have bytes : Host.utf8 (deterministicOutboxId host tenantId turnId revision eventType) =
      Host.utf8 "outbox-" ++ ((host.sha256Hex (Host.framed [tenantId, turnId, toString revision, eventType])).toList.take
        40).map (fun c => UInt8.ofNat c.toNat) := by
    simp only [Host.utf8,toByteArray_toList_flatMap,deterministicOutboxId,Host.shortHash,String.toList_append,
      String.toList_ofList,List.flatMap_append,flatMap_ascii ascii]
  have label : Host.utf8 "outbox-" = [111, 117, 116, 98, 111, 120, 45] := by decide +kernel
  rw [validIdempotencyKey,bytes,label]
  simp only [List.length_append,List.length_map,List.length_take,length,List.all_append,List.all_map,Bool.and_eq_true,
    decide_eq_true_eq]
  refine ⟨by simp, by decide, ?_⟩
  rw [List.all_eq_true]
  exact fun c member => tokenByte_lowerHex (digits c member)

/-- What a record must be to stand next in a history. -/
structure Follows (host : Host) (turn : TurnRow) (stage : Stage) (revision : Nat) (previous : Option ValidatedHistoryEntry)
    (undeliveredSeen : Bool) (record : TurnOutboxRecord) : Prop where
  tells : Tells host turn.toTurnCore stage (previous.map ValidatedHistoryEntry.state) revision record
  genesis : previous = none → revision = 0 ∧ stage.state = .accepted
  linked : ∀ p ∈ previous, p.state.canTransitionTo stage.state = true ∧ p.outbox.commitOrdinal < record.commitOrdinal ∧
    p.outbox.createdAt ≤ record.createdAt
  unseen : undeliveredSeen = true → record.status ≠ .delivered
  result : stage.terminalHash.isSome = stage.state.isTerminal
  final : stage.state.isTerminal = true → revision = turn.revision ∧ stage.terminalHash = turn.terminalHash
  clock : stage.time.FourDigitYear

/-- The entry a record is validated as. -/
def historyEntry (host : Host) (turn : TurnRow) (stage : Stage) (previous : Option ValidatedHistoryEntry)
    (record : TurnOutboxRecord) : ValidatedHistoryEntry :=
  ⟨record, stage.state, record.binding host turn.toTurnCore previous⟩

section

variable {turn : TurnRow} {stage : Stage} {revision : Nat} {previous : Option ValidatedHistoryEntry} {undeliveredSeen : Bool}
  {record : TurnOutboxRecord} (follows : Follows host turn stage revision previous undeliveredSeen record)
include follows

theorem Follows.succession : validateSuccession record turn.turnId previous = .ok () := by
  cases previous with
  | none => rfl
  | some p =>
    obtain ⟨_, ordinal, time⟩ := follows.linked p rfl
    simp [validateSuccession,ordinal,time]

theorem Follows.transition : validateHistoryTransition record stage.state previous = .ok () := by
  have text : record.payload.get "previous_state" =
      some (.ofOption (fun s : TurnState => .str s.name) (previous.map ValidatedHistoryEntry.state)) := by
    rw [follows.tells.payload]
    simp [Stage.payload,turnPayload,Json.get,Json.lookup]
  cases previous with
  | none =>
    obtain ⟨first, accepted⟩ := follows.genesis rfl
    simp [validateHistoryTransition,text,Json.ofOption,accepted,follows.tells.revision_eq,first]
  | some p =>
    obtain ⟨legal, _⟩ := follows.linked p rfl
    simp [validateHistoryTransition,text,Json.ofOption,Json.textAt,Json.pointer,Json.asStr,legal]

theorem Follows.terminal : validateTerminalBinding record stage.state turn = .ok () := by
  have flag : (record.payload.pointer ["terminal"]).bind Json.asBool = some stage.state.isTerminal := by
    rw [follows.tells.payload]
    simp [Stage.payload,turnPayload,Json.pointer,Json.get,Json.lookup,Json.asBool]
  have hash : record.payload.get "terminal_result_hash" = some (.ofOption .str stage.terminalHash) := by
    rw [follows.tells.payload]
    simp [Stage.payload,turnPayload,Json.get,Json.lookup]
  have result := follows.result
  simp only [validateTerminalBinding,ensure_of flag,ok_bind,hash,required_some]
  cases ended : stage.state.isTerminal with
  | true =>
    obtain ⟨last, same⟩ := follows.final ended
    rw [ended,Option.isSome_iff_exists] at result
    obtain ⟨text, found⟩ := result
    rw [found] at same
    simp [follows.tells.revision_eq,last,found,← same,Json.ofOption,Json.asStr]
  | false =>
    rw [ended,Option.isSome_eq_false_iff,Option.isNone_iff_eq_none] at result
    simp [result,Json.ofOption]

theorem Follows.binding (hex : host.DigestIsHex) :
    (record.binding host turn.toTurnCore previous).new = .ok (record.binding host turn.toTurnCore previous) := by
  have key : validIdempotencyKey (record.binding host turn.toTurnCore previous).idempotencyKey = true := by
    change validIdempotencyKey record.outboxId = true
    rw [follows.tells.entry]
    exact outboxId_valid hex _ _ _ _
  have type : (record.binding host turn.toTurnCore previous).eventType = stage.state.eventType := by
    change record.eventType = stage.state.eventType
    rw [follows.tells.entry]
    rfl
  have named : trim stage.state.eventType ≠ "" ∧ trim stage.state.eventType = stage.state.eventType := by
    cases stage.state <;> decide +kernel
  rw [← type] at named
  rw [IdempotentEventBinding.new,ensure_of key,ok_bind,ensure_of named,ok_bind]

theorem Follows.delivery :
    validateDelivery host record (record.binding host turn.toTurnCore previous) undeliveredSeen = .ok () := by
  unfold validateDelivery
  split
  · rename_i delivered
    have unseen : undeliveredSeen = false := by
      cases seen : undeliveredSeen with
      | false => rfl
      | true => exact absurd delivered (follows.unseen seen)
    simp [unseen,follows.tells.event delivered,IdempotentEventBinding.expectedEventId,TurnOutboxRecord.binding]
  · rfl

/-- A record that follows is accepted. -/
theorem Follows.accepted (clock : host.ClockReadsBack) (hex : host.DigestIsHex) {rest : List TurnOutboxRecord}
    {history : List ValidatedHistoryEntry}
    (later : validateHistoryRows host turn rest (revision + 1) (some (historyEntry host turn stage previous record))
      (undeliveredSeen || decide (record.status ≠ .delivered)) = .ok history) :
    validateHistoryRows host turn (record :: rest) revision previous undeliveredSeen =
      .ok (historyEntry host turn stage previous record :: history) := by
  rw [validateHistoryRows]
  simp only [ensure_of follows.tells.revision_eq,follows.succession,follows.tells.identity clock follows.clock,follows.tells.state,follows.transition,
    follows.terminal,follows.binding hex,follows.delivery,ok_bind,Except.mapError]
  exact bind_ok_iff.mpr ⟨history, later, rfl⟩

end

/-- The records of successive stages, the first of them at a revision, after a state. -/
inductive TellsAll (host : Host) (turn : TurnCore) : Nat → Option TurnState → List Stage → List TurnOutboxRecord → Prop
  | nil : TellsAll host turn revision previous [] []
  | cons (here : Tells host turn stage previous revision record)
      (later : TellsAll host turn (revision + 1) (some stage.state) stages records) :
      TellsAll host turn revision previous (stage :: stages) (record :: records)

/-- What is left of a history, after the last validated entry. -/
structure Onward (host : Host) (turn : TurnRow) (revision : Nat) (previous : Option ValidatedHistoryEntry)
    (undeliveredSeen : Bool) (stages : List Stage) (records : List TurnOutboxRecord) : Prop where
  tells : TellsAll host turn.toTurnCore revision (previous.map ValidatedHistoryEntry.state) stages records
  chain : stages.IsChain Stage.precedes
  ordered : records.Pairwise (fun a b => a.commitOrdinal < b.commitOrdinal ∧ (b.status = .delivered → a.status = .delivered))
  genesis : previous = none → revision = 0 ∧ ∀ s ∈ stages.head?, s.state = .accepted
  linked : ∀ p ∈ previous, ∀ s ∈ stages.head?, p.state.canTransitionTo s.state = true ∧ p.outbox.createdAt ≤ s.time.floor
  after : ∀ p ∈ previous, ∀ r ∈ records, p.outbox.commitOrdinal < r.commitOrdinal
  unseen : undeliveredSeen = true → ∀ r ∈ records, r.status ≠ .delivered
  result : ∀ s ∈ stages, s.terminalHash.isSome = s.state.isTerminal
  last : ∀ s, stages.getLast? = some s → s.terminalHash = turn.terminalHash
  length : revision + stages.length = turn.revision + 1
  clock : ∀ s ∈ stages, s.time.FourDigitYear

section

variable {turn : TurnRow} {stage : Stage} {stages : List Stage} {revision : Nat} {previous : Option ValidatedHistoryEntry}
  {undeliveredSeen : Bool} {record : TurnOutboxRecord} {records : List TurnOutboxRecord}

theorem TellsAll.split {previous : Option TurnState}
    (tells : TellsAll host turn.toTurnCore revision previous (stage :: stages) (record :: records)) :
    Tells host turn.toTurnCore stage previous revision record ∧
      TellsAll host turn.toTurnCore (revision + 1) (some stage.state) stages records := by
  cases tells with
  | cons here later => exact ⟨here, later⟩

theorem Onward.head (onward : Onward host turn revision previous undeliveredSeen (stage :: stages) (record :: records)) :
    Follows host turn stage revision previous undeliveredSeen record := by
  obtain ⟨tells, chain, ordered, genesis, linked, after, unseen, result, last, length, clock⟩ := onward
  obtain ⟨here, later⟩ := tells.split
  refine ⟨here, ?_, ?_, ?_, result stage List.mem_cons_self, ?_, clock stage List.mem_cons_self⟩
  · intro none
    obtain ⟨zero, accepted⟩ := genesis none
    exact ⟨zero, accepted stage rfl⟩
  · intro p is
    obtain ⟨legal, time⟩ := linked p is stage rfl
    exact ⟨legal, after p is record List.mem_cons_self, here.createdAt ▸ time⟩
  · exact fun seen => unseen seen record List.mem_cons_self
  · intro ended
    cases stages with
    | nil => exact ⟨by simpa using length, last stage rfl⟩
    | cons next rest =>
      have legal := (List.isChain_cons_cons.mp chain).1.1
      rw [TurnState.live_of_canTransition legal] at ended
      cases ended

theorem Onward.tail (onward : Onward host turn revision previous undeliveredSeen (stage :: stages) (record :: records)) :
    Onward host turn (revision + 1) (some (historyEntry host turn stage previous record))
      (undeliveredSeen || decide (record.status ≠ .delivered)) stages records := by
  obtain ⟨tells, chain, ordered, genesis, linked, after, unseen, result, last, length, clock⟩ := onward
  obtain ⟨here, later⟩ := tells.split
  obtain ⟨first, ordered⟩ := List.pairwise_cons.mp ordered
  refine ⟨later, chain.tail, ordered, nofun, ?_, ?_, ?_, fun s inside => result s (List.mem_cons_of_mem _ inside), ?_, ?_,
    fun s inside => clock s (List.mem_cons_of_mem _ inside)⟩
  · rintro p ⟨⟩ next isNext
    cases stages with
    | nil => cases isNext
    | cons other rest =>
      cases isNext
      obtain ⟨legal, time⟩ := (List.isChain_cons_cons.mp chain).1
      refine ⟨legal, ?_⟩
      simp only [historyEntry,here.createdAt,DateTime.le_def,DateTime.floor,DateTime.millis] at time ⊢
      omega
  · rintro p ⟨⟩ r inside
    exact (first r inside).1
  · intro seen r inside delivered
    rw [Bool.or_eq_true,decide_eq_true_eq] at seen
    rcases seen with seen | undelivered
    · exact unseen seen r (List.mem_cons_of_mem _ inside) delivered
    · exact undelivered ((first r inside).2 delivered)
  · intro s isLast
    apply last s
    rw [List.getLast?_cons,isLast]
    rfl
  · simp only [List.length_cons] at length
    omega

/-- What is left is accepted as it is. -/
theorem Onward.accepted (clock : host.ClockReadsBack) (hex : host.DigestIsHex)
    (onward : Onward host turn revision previous undeliveredSeen stages records) :
    ∃ history, validateHistoryRows host turn records revision previous undeliveredSeen = .ok history ∧
      history.map ValidatedHistoryEntry.outbox = records ∧ history.map ValidatedHistoryEntry.state = stages.map Stage.state := by
  induction records generalizing revision previous undeliveredSeen stages with
  | nil =>
    obtain ⟨⟩ := onward.tells
    exact ⟨[], rfl, rfl, rfl⟩
  | cons record records ih =>
    cases stages with
    | nil => cases onward.tells
    | cons stage stages =>
      obtain ⟨history, later, outbox, states⟩ := ih onward.tail
      exact ⟨_, onward.head.accepted clock hex later, by simp [historyEntry,outbox], by simp [historyEntry,states]⟩

end

/-- The record a row reads back as. -/
def readRow (host : Host) (db : Database) (row : OutboxRow) : Option TurnOutboxRecord :=
  match selectOutbox host db row with
  | .ok record => record
  | .error _ => none

theorem readRow_eq {row : OutboxRow} {record : TurnOutboxRecord} (read : selectOutbox host db row = .ok (some record)) :
    readRow host db row = some record := by
  simp [readRow,read]

section

variable {turn : TurnCore}

theorem tells_of_read {stage : Stage} {previous : Option TurnState} {revision : Nat} {row : OutboxRow}
    {record : TurnOutboxRecord} (readsBack : host.ReadsBack) (bound : revision ≤ i64MaxNat)
    (entry : row.toOutboxEntry = stage.entry host turn previous revision)
    (event : row.status = .delivered →
      row.ledgerEventId = some (deterministicIdempotentEventId host turn.principalId row.outboxId))
    (read : selectOutbox host db row = .ok (some record)) : Tells host turn stage previous revision record := by
  have reads := selectOutbox_reads read
  have told : Told host (stage.entry host turn previous revision) _ := stage.told readsBack bound
  have payload := selectOutbox_payload read
  have created := reads.createdAt
  rw [entry] at payload created
  have time : DateTime.ofMillis? (stage.entry host turn previous revision).createdAtMs = some stage.time.floor := by
    simp [Stage.entry,OutboxEntry.written]
  refine ⟨reads.columns ▸ entry, ?_, ?_, reads.columns ▸ event⟩
  · exact Except.ok.inj (payload.symm.trans told.parsed)
  · exact Option.some.inj (created.symm.trans time)

/-- The rows of a life read back as its stages. -/
theorem tellsAll_of_rows {stages : List Stage} {rows : List OutboxRow} {previous : Option TurnState} {revision : Nat}
    (readsBack : host.ReadsBack) (bound : revision + stages.length ≤ i64MaxNat + 1)
    (same : rows.map OutboxRow.toOutboxEntry = entriesFrom host turn revision previous stages)
    (reads : ∀ o ∈ rows, ∃ record, selectOutbox host db o = .ok (some record))
    (events : ∀ o ∈ rows, o.status = .delivered →
      o.ledgerEventId = some (deterministicIdempotentEventId host turn.principalId o.outboxId)) :
    TellsAll host turn revision previous stages (rows.filterMap (readRow host db)) := by
  induction stages generalizing rows previous revision with
  | nil =>
    rw [entriesFrom,List.map_eq_nil_iff] at same
    rw [same]
    exact .nil
  | cons stage stages ih =>
    obtain ⟨row, rest, rfl, entry, same⟩ := List.map_eq_cons_iff.mp same
    obtain ⟨record, read⟩ := reads row List.mem_cons_self
    rw [List.length_cons] at bound
    rw [List.filterMap_cons_some (readRow_eq read)]
    refine .cons (tells_of_read readsBack (by omega) entry (events row List.mem_cons_self) read) ?_
    exact ih (by omega) same (fun o inside => reads o (List.mem_cons_of_mem _ inside))
      (fun o inside => events o (List.mem_cons_of_mem _ inside))

theorem TellsAll.get {stages : List Stage} {records : List TurnOutboxRecord} {previous : Option TurnState} {revision i : Nat}
    {stage : Stage} (tells : TellsAll host turn revision previous stages records) (position : stages[i]? = some stage) :
    ∃ record before, records[i]? = some record ∧ Tells host turn stage before (revision + i) record := by
  induction tells generalizing i with
  | nil => cases position
  | cons here later ih =>
    cases i with
    | zero =>
      cases position
      exact ⟨_, _, rfl, here⟩
    | succ i =>
      obtain ⟨record, before, found, tells⟩ := ih position
      exact ⟨record, before, found, by rwa [Nat.add_assoc,Nat.add_comm 1] at tells⟩

end

theorem Ordered.increasing (ordered : Ordered db) (inOrder : DeliveredInOrder db) : db.outbox.Pairwise (fun a b =>
    (∀ c d, Table.select OrderRow.key a.key db.commitOrder = some c → Table.select OrderRow.key b.key db.commitOrder = some d →
      c.commitOrdinal < d.commitOrdinal) ∧
    (a.tenantId = b.tenantId → b.status = .delivered → a.status = .delivered)) := by
  rw [List.pairwise_iff_getElem]
  intro i j here there before
  have first := List.getElem?_eq_getElem here
  have second := List.getElem?_eq_getElem there
  refine ⟨?_, inOrder i j _ _ before first second⟩
  intro c d own other
  rw [ordered.select_order first] at own
  rw [ordered.select_order second] at other
  cases own
  cases other
  exact Nat.succ_lt_succ before

/-- Turns begin as accepted, at a time that RFC 3339 can write. -/
def accepting : Limits := ⟨(· = .accepted), DateTime.FourDigitYear⟩

section

variable {t : TurnRow} (sound : Sound host accepting db) (member : t ∈ db.turns)
include sound member

/-- The rows of a turn come in the order of its revisions. -/
theorem Sound.turnOutboxRows_eq : turnOutboxRows db t.tenantId t.turnId =
    db.outbox.filter (fun o => o.toOutboxEntry.ofTurn t.toTurnCore) := by
  have sorted := range'_pairwise_lt 0 (t.revision + 1)
  rw [← sound.revisions member,List.pairwise_map] at sorted
  exact List.mergeSort_of_pairwise (sorted.imp (fun before => by simpa using Nat.le_of_lt before))

theorem Sound.turn_events {o : OutboxRow} (inside : o ∈ db.outbox) (own : o.toOutboxEntry.ofTurn t.toTurnCore = true)
    (delivered : o.status = .delivered) :
    o.ledgerEventId = some (deterministicIdempotentEventId host t.principalId o.outboxId) := by
  obtain ⟨principalId, ⟨other, known, key, principal⟩, event, _⟩ := (sound.delivery.delivered o inside delivered).event
  obtain rfl := sound.exclusive.turnKeys.eq_of_key known member (key.trans (OutboxEntry.ofTurn_iff.mp own).symm)
  rw [event,principal]

/-- The rows of a turn are the history of its life. -/
theorem Sound.onward (readsBack : host.ReadsBack) (legible : Legible host db) :
    ∃ stages, Life accepting t stages ∧ Onward host t 0 none false stages
      ((turnOutboxRows db t.tenantId t.turnId).filterMap (readRow host db)) := by
  obtain ⟨stages, life, rows⟩ := sound.recorded.lives t member
  have bound : 0 + stages.length ≤ i64MaxNat + 1 := by
    rw [Nat.zero_add,life.length]
    exact Nat.succ_le_succ life.bound
  have own : ∀ o ∈ db.outbox.filter (fun o => o.toOutboxEntry.ofTurn t.toTurnCore),
      o ∈ db.outbox ∧ o.toOutboxEntry.ofTurn t.toTurnCore = true := fun o inside => List.mem_filter.mp inside
  have entries : (db.outbox.filter (fun o => o.toOutboxEntry.ofTurn t.toTurnCore)).map OutboxRow.toOutboxEntry =
      entriesFrom host t.toTurnCore 0 none stages := by
    rw [← rows,Database.entries,List.filter_map]
    rfl
  refine ⟨stages, life, ?_⟩
  rw [sound.turnOutboxRows_eq member]
  refine ⟨?_, life.chain, ?_, ?_, by simp, by simp, by simp, life.result, ?_, ?_, life.clock⟩
  · refine tellsAll_of_rows readsBack bound entries (fun o inside => legible o (own o inside).1) ?_
    exact fun o inside => sound.turn_events member (own o inside).1 (own o inside).2
  · rw [List.pairwise_filterMap]
    have increasing := (sound.ordered.increasing sound.delivery.inOrder).filter (fun o => o.toOutboxEntry.ofTurn t.toTurnCore)
    refine increasing.imp_of_mem ?_
    rintro a b first second ⟨ordinals, delivered⟩ c readA d readB
    obtain ⟨insideA, ownA⟩ := own a first
    obtain ⟨insideB, ownB⟩ := own b second
    obtain ⟨recordA, readA'⟩ := legible a insideA
    obtain ⟨recordB, readB'⟩ := legible b insideB
    rw [readRow_eq readA'] at readA
    rw [readRow_eq readB'] at readB
    cases readA
    cases readB
    have readsA := selectOutbox_reads readA'
    have readsB := selectOutbox_reads readB'
    obtain ⟨orderA, foundA, ordinalA, _⟩ := readsA.order
    obtain ⟨orderB, foundB, ordinalB, _⟩ := readsB.order
    have keyA := OutboxEntry.ofTurn_iff.mp ownA
    have keyB := OutboxEntry.ofTurn_iff.mp ownB
    refine ⟨by rw [ordinalA,ordinalB]; exact ordinals _ _ foundA foundB, ?_⟩
    rw [readsA.columns,readsB.columns]
    exact delivered (congrArg Prod.fst (keyA.symm.trans keyB))
  · intro _
    obtain ⟨s, head, _, accepted, _⟩ := life.first
    refine ⟨rfl, ?_⟩
    intro other is
    rw [head] at is
    cases is
    exact accepted
  · intro s isLast
    obtain ⟨other, last, _, hash, _⟩ := life.last
    rw [last] at isLast
    cases isLast
    exact hash
  · rw [Nat.zero_add,life.length]

omit sound member in
/-- The entry of a stage. -/
theorem TellsAll.entry {stages : List Stage} {records : List TurnOutboxRecord} {history : List ValidatedHistoryEntry} {i : Nat}
    {stage : Stage} (tells : TellsAll host t.toTurnCore 0 none stages records)
    (outbox : history.map ValidatedHistoryEntry.outbox = records)
    (states : history.map ValidatedHistoryEntry.state = stages.map Stage.state) (position : stages[i]? = some stage) :
    ∃ entry before, history[i]? = some entry ∧ entry.state = stage.state ∧ Tells host t.toTurnCore stage before i entry.outbox := by
  obtain ⟨record, before, found, tells⟩ := tells.get position
  rw [← outbox,List.getElem?_map,Option.map_eq_some_iff] at found
  obtain ⟨entry, here, rfl⟩ := found
  have state := congrArg (·[i]?) states
  simp only [List.getElem?_map,here,position,Option.map_some,Option.some.injEq] at state
  exact ⟨entry, before, here, state, by rwa [Nat.zero_add] at tells⟩

omit sound member in
/-- A life begins and ends as its turn says. -/
theorem Life.ends {record : DurableTurnRecord} {stages : List Stage} {records : List TurnOutboxRecord}
    {history : List ValidatedHistoryEntry} (life : Life accepting record.toTurnRow stages) (reads : record.Reads record.toTurnRow)
    (tells : TellsAll host record.toTurnCore 0 none stages records)
    (outbox : history.map ValidatedHistoryEntry.outbox = records)
    (states : history.map ValidatedHistoryEntry.state = stages.map Stage.state) : validateHistoryEnds record history = .ok () := by
  obtain ⟨s, head, _, accepted, created⟩ := life.first
  obtain ⟨s', last, state, _, updated⟩ := life.last
  have position : stages[record.revision]? = some s' := by
    rw [List.getLast?_eq_getElem?,life.length] at last
    exact last
  obtain ⟨first, _, atFirst, firstState, firstTells⟩ := tells.entry outbox states (List.head?_eq_getElem? ▸ head)
  obtain ⟨final, _, atLast, lastState, lastTells⟩ := tells.entry outbox states position
  have count : history.length = record.revision + 1 := by
    rw [← life.length,← List.length_map Stage.state,← states,List.length_map]
  have createdAt := reads.createdAt
  have updatedAt := reads.updatedAt
  rw [← created,DateTime.ofMillis_millis] at createdAt
  rw [← updated,DateTime.ofMillis_millis] at updatedAt
  have accepted : s.state = .accepted := accepted
  rw [← List.head?_eq_getElem?] at atFirst
  have atLast : history.getLast? = some final := by
    rw [List.getLast?_eq_getElem?,count]
    exact atLast
  simp only [validateHistoryEnds,atFirst,atLast,required_some,ok_bind]
  apply ensure_of
  refine ⟨firstState.trans accepted, ?_, lastState.trans state, lastTells.revision_eq, ?_⟩
  · exact firstTells.createdAt.trans (Option.some.inj createdAt)
  · exact lastTells.createdAt.trans (Option.some.inj updatedAt)

/-- What the store wrote of a turn passes as its history. -/
theorem Sound.history_ok (readsBack : host.ReadsBack) (clock : host.ClockReadsBack) (hex : host.DigestIsHex)
    (legible : Legible host db) :
    ∃ record history, materializeTurn host t = .ok record ∧ validateTurnHistory host db record = .ok history := by
  obtain ⟨record, read⟩ := sound.recorded.reads t member
  obtain ⟨stages, life, onward⟩ := sound.onward member readsBack legible
  obtain ⟨history, validated, outbox, states⟩ := onward.accepted clock hex
  have reads := materializeTurn_reads read
  obtain rfl := reads.columns
  have found : mapAll (selectOutbox host db) (turnOutboxRows db record.tenantId record.turnId) =
      .ok ((turnOutboxRows db record.tenantId record.turnId).map (readRow host db)) := by
    apply mapAll_ok_of
    intro o inside
    rw [sound.turnOutboxRows_eq member] at inside
    obtain ⟨record, read⟩ := legible o (List.mem_filter.mp inside).1
    rw [read,readRow_eq read]
  have count : history.length = record.revision + 1 := by
    have := congrArg List.length states
    rw [List.length_map,List.length_map,life.length] at this
    exact this
  have complete : record.revision < u64Max ∧
      ((turnOutboxRows db record.tenantId record.turnId).filterMap (readRow host db)).length = record.revision + 1 := by
    refine ⟨?_, by rw [← outbox,List.length_map,count]⟩
    have := life.bound
    unfold i64MaxNat at this
    unfold u64Max
    omega
  have ends := life.ends reads onward.tells outbox states
  refine ⟨record, history, read, ?_⟩
  have records : ((turnOutboxRows db record.tenantId record.turnId).map (readRow host db)).filterMap (fun r => r) =
      (turnOutboxRows db record.tenantId record.turnId).filterMap (readRow host db) := by
    rw [List.filterMap_map]
    rfl
  simp only [validateTurnHistory,found,ok_bind,records]
  rw [ensure_of complete,ok_bind,validated,ok_bind,ends,ok_bind]

end

/-- .. unless the turn did not begin as accepted. -/
theorem Tells.refused {turn : TurnRow} {stage : Stage} {record : TurnOutboxRecord} {rest : List TurnOutboxRecord}
    (tells : Tells host turn.toTurnCore stage none 0 record) (clock : host.ClockReadsBack) (year : stage.time.FourDigitYear)
    (other : stage.state ≠ .accepted) :
    validateHistoryRows host turn (record :: rest) 0 none false = .error (.outboxHistoryGenesis 0) := by
  have genesis : validateHistoryTransition record stage.state none = .error (.outboxHistoryGenesis 0) := by
    simp [validateHistoryTransition,ensure,other,tells.revision_eq]
  rw [validateHistoryRows]
  simp only [ensure_of tells.revision_eq,validateSuccession,tells.identity clock year,tells.state,genesis,ok_bind,error_bind]

/-- A new store and one request. -/
def oneRequest (approvalRequired : Bool) : List Op := [
  .reopen sampleNow sampleNow sampleNow,
  .beginTurn sampleIngress (sampleAdmission approvalRequired) sampleNow]

def oneTurn (approvalRequired : Bool) : Database :=
  run sha256Host (Database.created "/var/lib/zaion/ledger.db" "instance-1") (oneRequest approvalRequired)

def requested (approvalRequired : Bool) : TurnRow :=
  admittedTurn sha256Host sampleIngress (sampleAdmission approvalRequired) sampleNow

theorem oneTurn_rows (approvalRequired : Bool) : (oneTurn approvalRequired).turns = [requested approvalRequired] ∧
    (oneTurn approvalRequired).outbox = [((requested approvalRequired).entry sha256Host none none sampleNow).pending] := by
  obtain ⟨record, read⟩ := sampleAdmission_reads approvalRequired
  exact run_first "/var/lib/zaion/ledger.db" "instance-1" sampleNow sampleNow sampleNow ⟨rfl, rfl, rfl, rfl⟩ (by decide) read

end Zaion.Turn
