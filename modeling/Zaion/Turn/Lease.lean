import Zaion.Turn.Exec

/-! Operations of the dispatcher, read as steps on the head of a tenant's outbox. -/
namespace Zaion.Turn

open Lib Ledger

variable {host : Host} {limits : Limits} {db db' : Database}

theorem updateOutbox_ok {key : String × String} {cond : OutboxRow → Bool} {f : OutboxRow → OutboxRow}
    {lost : TurnStoreError} (done : updateOutbox key cond f lost db = .ok db') :
    ∃ row, Table.select outboxKey key db.outbox = some row ∧ cond row = true ∧ db' = db.setOutbox key f := by
  simp only [updateOutbox,bind_ok_iff,required_ok_iff,Table.update_iff,Except.ok.injEq] at done
  obtain ⟨_, ⟨row, found, holds, rfl⟩, _, _, rfl⟩ := done
  exact ⟨row, found, holds, rfl⟩

theorem requireOutbox_reads {tenantId outboxId : String} {record : TurnOutboxRecord}
    (done : requireOutbox host db tenantId outboxId = .ok record) :
    ∃ row, Table.select outboxKey (tenantId, outboxId) db.outbox = some row ∧ record.Reads db row := by
  obtain ⟨row, found, read⟩ := requireOutbox_ok_iff.mp done
  exact ⟨row, found, selectOutbox_reads read⟩

/-- The row under a key, when the key is that of the head, is the head. -/
theorem Head.of_select {i : Nat} {row other : OutboxRow} {key : String × String} (ordered : Ordered db)
    (head : Head db i row) (own : outboxKey row = key) (found : Table.select outboxKey key db.outbox = some other) :
    other = row :=
  ordered.keyed.eq_of_key (Table.mem_of_select found) head.mem ((Table.key_of_select found).trans own.symm)

theorem requireHead_ok {tenantId outboxId : String} (ordered : Ordered db)
    (done : requireHead db tenantId outboxId = .ok ()) :
    ∃ i row, Head db i row ∧ outboxKey row = (tenantId, outboxId) := by
  simp only [requireHead,bind_ok_iff,ensure_ok_iff] at done
  obtain ⟨_, answer, rfl⟩ := done
  exact ordered.tenantOutboxHead_ok answer

/-- What a claim that takes the lease has found and leaves. -/
structure Claims (host : Host) (db : Database) (tenantId owner token : String) (now : DateTime)
    (i : Nat) (row : OutboxRow) (untilMs : Int) (db' : Database) : Prop where
  head : Head db i row
  tenant : row.tenantId = tenantId
  free : outboxIsQuarantined db row.tenantId row.outboxId = false
  available : row.availableAtMs ≤ now.millis
  claimable : row.claimable now.millis = true
  result : db' = db.setOutbox row.key (·.claimed owner token untilMs now.millis)
  readable : Readable host db' row.key
  ahead : now.millis < untilMs

/-- A lease of a second or more ends in a later millisecond. -/
theorem validLeaseDuration.ahead {now leaseUntil : DateTime} {duration : Int} (valid : validLeaseDuration duration)
    (added : now.add? duration = some leaseUntil) : now.millis < leaseUntil.millis := by
  have nanos := DateTime.nanos_of_add added
  have long := valid.1
  unfold DateTime.millis
  omega

/-- What an update of a row leaves under the row's key. -/
theorem select_setOutbox {key : String × String} {f : OutboxRow → OutboxRow} {row : OutboxRow}
    (found : Table.select outboxKey key db.outbox = some row)
    (kept : ∀ o, (f o).toOutboxEntry = o.toOutboxEntry) :
    Table.select outboxKey key (db.setOutbox key f).outbox = some (f row) := by
  unfold Database.setOutbox
  rw [Table.select_modify_self (fun o same => by rw [outboxKey,kept]; exact same),found]
  rfl

theorem claimHead_ok {tenantId outboxId owner token : String} {now : DateTime} {duration : Int}
    {claimed : Option TurnOutboxRecord} (ordered : Ordered db) {i : Nat} {row : OutboxRow}
    (head : Head db i row) (own : outboxKey row = (tenantId, outboxId)) (valid : validLeaseDuration duration)
    (done : claimHead host tenantId outboxId owner now duration token db = .ok (db', claimed)) :
    (db' = db ∧ claimed = none) ∨ ∃ record untilMs, claimed = some record ∧
      record.toOutboxRow = row.claimed owner token untilMs now.millis ∧
      Claims host db tenantId owner token now i row untilMs db' := by
  simp only [claimHead,bind_ok_iff] at done
  obtain ⟨current, loaded, done⟩ := done
  split at done
  · cases done
    exact Or.inl ⟨rfl, rfl⟩
  · rename_i free
    split at done
    · cases done
      exact Or.inl ⟨rfl, rfl⟩
    · rename_i ready
      simp only [bind_ok_iff,required_ok_iff,Except.ok.injEq,Prod.mk.injEq] at done
      obtain ⟨_, _, leaseUntil, added, _, updated, record, reloaded, _, _, _, _, rfl, rfl⟩ := done
      obtain ⟨other, found, claimable, rfl⟩ := updateOutbox_ok updated
      obtain rfl := head.of_select ordered own found
      obtain ⟨again, found', reads⟩ := requireOutbox_reads loaded
      obtain rfl := head.of_select ordered own found'
      obtain ⟨after, found'', reads'⟩ := requireOutbox_reads reloaded
      have leased : after = again.claimed owner token leaseUntil.millis now.millis := by
        apply Option.some.inj
        rw [← found'']
        apply select_setOutbox found
        exact fun _ => rfl
      subst leased
      simp only [TurnOutboxRecord.ready,Bool.not_eq_false,Bool.and_eq_true,decide_eq_true_eq] at ready
      obtain ⟨rfl, rfl⟩ := Prod.mk.inj own
      exact Or.inr ⟨record, leaseUntil.millis, rfl, reads'.columns, head, rfl, Bool.eq_false_iff.mpr free,
        (DateTime.ofMillis_le_iff reads.availableAt).mp ready.1, claimable, rfl, ⟨_, reloaded⟩, valid.ahead added⟩

theorem claimNextOutbox_ok {tenantId owner token : String} {now : DateTime} {duration : Int}
    {claimed : Option TurnOutboxRecord} (ordered : Ordered db)
    (done : claimNextOutbox host tenantId owner now duration token db = .ok (db', claimed)) :
    (db' = db ∧ claimed = none) ∨ ∃ record i row untilMs, claimed = some record ∧
      record.toOutboxRow = row.claimed owner token untilMs now.millis ∧
      Claims host db tenantId owner token now i row untilMs db' := by
  simp only [claimNextOutbox,bind_ok_iff,ensure_ok_iff] at done
  obtain ⟨_, _, _, valid, _, _, answer, headed, done⟩ := done
  cases answer with
  | none =>
    cases done
    exact Or.inl ⟨rfl, rfl⟩
  | some outboxId =>
    obtain ⟨i, row, head, own⟩ := ordered.tenantOutboxHead_ok headed
    rcases claimHead_ok ordered head own valid done with same | ⟨record, untilMs, taken⟩
    · exact Or.inl same
    · exact Or.inr ⟨record, i, row, untilMs, taken⟩

/-- What the holder of a lease presents, and the row it holds. -/
structure Holds (db : Database) (tenantId outboxId owner token : String) (now : DateTime)
    (i : Nat) (row : OutboxRow) : Prop where
  head : Head db i row
  key : row.key = (tenantId, outboxId)
  held : row.heldBy owner token now.millis = true
  monotone : row.updatedAtMs ≤ now.millis

theorem validateActiveLease_monotone {target : TurnOutboxRecord} {row : OutboxRow} {owner token : String}
    {now : DateTime} (reads : target.Reads db row)
    (done : validateActiveLease target owner token now = .ok ()) : row.updatedAtMs ≤ now.millis := by
  simp only [validateActiveLease,bind_ok_iff,ensure_ok_iff] at done
  obtain ⟨_, monotone, _⟩ := done
  exact (DateTime.ofMillis_le_iff reads.updatedAt).mp monotone

/-- A row at the head whose holder passes the checks of its lease. -/
theorem Head.monotone {tenantId outboxId owner token : String} {now : DateTime} {i : Nat} {row : OutboxRow}
    {current : TurnOutboxRecord} (ordered : Ordered db) (head : Head db i row) (own : outboxKey row = (tenantId, outboxId))
    (loaded : requireOutbox host db tenantId outboxId = .ok current)
    (lease : validateActiveLease current owner token now = .ok ()) : row.updatedAtMs ≤ now.millis := by
  obtain ⟨other, found, reads⟩ := requireOutbox_reads loaded
  obtain rfl := head.of_select ordered own found
  exact validateActiveLease_monotone reads lease

theorem releaseOutbox_ok {tenantId outboxId owner token : String} {now availableAt : DateTime}
    {error : String} (ordered : Ordered db)
    (done : releaseOutbox host tenantId outboxId owner token now availableAt error db = .ok db') :
    ∃ i row, Holds db tenantId outboxId owner token now i row ∧
      db' = db.setOutbox row.key (·.released availableAt.millis now.millis error) ∧
      Readable host db' row.key ∧ now.millis ≤ availableAt.millis := by
  simp only [releaseOutbox,bind_ok_iff,ensure_ok_iff,Except.ok.injEq] at done
  obtain ⟨_, _, _, _, _, _, _, later, _, _, _, headed, current, loaded, _, lease, _, updated, _, reloaded, _, _, _, _, rfl⟩ :=
    done
  obtain ⟨i, row, head, own⟩ := requireHead_ok ordered headed
  obtain ⟨other, found, held, rfl⟩ := updateOutbox_ok updated
  obtain rfl := head.of_select ordered own found
  refine ⟨i, other, ⟨head, own, held, head.monotone ordered own loaded lease⟩, ?_, ?_, ?_⟩
  · rw [show other.key = (tenantId, outboxId) from own]
  · rw [show other.key = (tenantId, outboxId) from own]
    exact ⟨_, reloaded⟩
  · have later := DateTime.le_def.mp later
    unfold DateTime.millis
    omega

theorem renewOutboxLease_ok {tenantId outboxId owner token : String} {now : DateTime} {duration : Int}
    {renewed : TurnOutboxRecord} (ordered : Ordered db)
    (done : renewOutboxLease host tenantId outboxId owner token now duration db = .ok (db', renewed)) :
    ∃ i row untilMs, Holds db tenantId outboxId owner token now i row ∧
      outboxIsQuarantined db row.tenantId row.outboxId = false ∧
      db' = db.setOutbox row.key (·.renewed untilMs now.millis) ∧ Readable host db' row.key ∧ now.millis < untilMs := by
  simp only [renewOutboxLease,bind_ok_iff,required_ok_iff,ensure_ok_iff,Except.ok.injEq,Prod.mk.injEq] at done
  obtain ⟨_, _, _, _, _, valid, leaseUntil, added, _, _, _, headed, _, free, current, loaded, _, lease, _, updated, _, reloaded,
    _, _, rfl, _⟩ := done
  obtain ⟨i, row, head, own⟩ := requireHead_ok ordered headed
  obtain ⟨other, found, held, rfl⟩ := updateOutbox_ok updated
  obtain rfl := head.of_select ordered own found
  obtain ⟨rfl, rfl⟩ := Prod.mk.inj own
  exact ⟨i, other, leaseUntil.millis, ⟨head, rfl, held, head.monotone ordered rfl loaded lease⟩, free, rfl, ⟨_, reloaded⟩,
    valid.ahead added⟩

theorem quarantineOutbox_ok {claim : TurnOutboxRecord} {failure : OutboxDispatchFailure} {exhausted : Bool}
    {now : DateTime} {written : QuarantineRow} (ordered : Ordered db)
    (done : quarantineOutbox host claim failure exhausted now db = .ok (db', written)) :
    ∃ i row q owner token, claim.leaseOwner = some owner ∧ claim.leaseToken = some token ∧
      Holds db claim.tenantId claim.outboxId owner token now i row ∧ Quarantines db i row q ∧
      db' = ({ db with quarantines := db.quarantines ++ [q] }.setOutbox row.key
        (·.released now.millis now.millis failure.message)) ∧ Readable host db' row.key := by
  simp only [quarantineOutbox,insertQuarantine,bind_ok_iff,ensure_ok_iff,required_ok_iff,Except.ok.injEq,
    Prod.mk.injEq] at done
  obtain ⟨owner, hasOwner, token, hasToken, principalId, _, _, _, _, headed, current, loaded, _, lease, _,
    ⟨_, _, _, fresh, _, guarded, rfl⟩, _, updated, _, _, _, reloaded, _, _, rfl, _⟩ := done
  obtain ⟨i, row, head, own⟩ := requireHead_ok ordered headed
  obtain ⟨other, found, held, rfl⟩ := updateOutbox_ok updated
  obtain rfl := head.of_select ordered own found
  obtain ⟨again, found', reads⟩ := requireOutbox_reads loaded
  obtain rfl := head.of_select ordered own found'
  obtain ⟨joined, member, key, _, _, _, attempts, payloadHash, ordinal, principal, _, first⟩ := guarded
  have same : joined.2 = again := by
    have inside := ordered.mem_committed.mp (show (joined.1, joined.2) ∈ committed db from member)
    obtain ⟨_, here, _⟩ := inside
    refine ordered.keyed.eq_of_key (List.mem_of_getElem? here) head.mem (key.trans ?_)
    rw [← reads.columns]
    rfl
  have columns := reads.columns
  obtain ⟨j, first', head', tenant, position⟩ := ordered.first_undelivered first
  have sameTenant : again.tenantId = first'.tenantId := by
    rw [tenant,← columns]
  obtain ⟨rfl, rfl⟩ := head.unique head' sameTenant
  have own : again.key = (claim.tenantId, claim.outboxId) := own
  refine ⟨i, again, _, owner, token, hasOwner, hasToken, ⟨head, own, held, validateActiveLease_monotone reads lease⟩, ?_,
    by rw [own], ?_⟩
  · exact
      { key := by rw [← columns]; rfl
        fresh := fun other member => (fresh other member).1
        ordinal := by rw [← ordinal,position]
        payloadHash := by rw [← columns]
        attempts := by rw [← columns]
        principal := by simpa [same] using principal }
  · rw [own]
    exact ⟨_, reloaded⟩

/-- The event of a validated row is bound to the row and to the principal of its turn. -/
structure BoundTo (entry : ValidatedHistoryEntry) (turn : TurnCore) : Prop where
  key : entry.binding.idempotencyKey = entry.outbox.outboxId
  principal : entry.binding.principalId = turn.principalId
  eventType : entry.binding.eventType = entry.outbox.eventType
  payload : entry.binding.payload = entry.outbox.payload

theorem validateHistoryRows_entries {turn : TurnRow} {records : List TurnOutboxRecord} {index : Nat}
    {previous : Option ValidatedHistoryEntry} {seen : Bool} {history : List ValidatedHistoryEntry}
    (done : validateHistoryRows host turn records index previous seen = .ok history)
    {entry : ValidatedHistoryEntry} (member : entry ∈ history) :
    entry.outbox ∈ records ∧ BoundTo entry turn.toTurnCore := by
  induction records generalizing index previous seen history with
  | nil =>
    cases done
    cases member
  | cons record records ih =>
    simp only [validateHistoryRows,bind_ok_iff,mapError_ok_iff,Except.ok.injEq] at done
    obtain ⟨_, _, _, _, _, _, state, _, _, _, _, _, binding, made, _, _, others, rest, rfl⟩ := done
    obtain rfl := IdempotentEventBinding.new_ok made
    rcases List.mem_cons.mp member with rfl | later
    · exact ⟨List.mem_cons_self, rfl, rfl, rfl, rfl⟩
    · obtain ⟨inside, bound⟩ := ih rest later
      exact ⟨List.mem_cons_of_mem _ inside, bound⟩

theorem validateTurnHistory_entries {turn : DurableTurnRecord} {history : List ValidatedHistoryEntry}
    (done : validateTurnHistory host db turn = .ok history) {entry : ValidatedHistoryEntry}
    (member : entry ∈ history) :
    BoundTo entry turn.toTurnCore ∧ ∃ row ∈ db.outbox, row.tenantId = turn.tenantId ∧
      row.turnId = turn.turnId ∧ selectOutbox host db row = .ok (some entry.outbox) := by
  simp only [validateTurnHistory,bind_ok_iff,Except.ok.injEq] at done
  obtain ⟨found, selected, _, _, _, walked, _, _, rfl⟩ := done
  obtain ⟨inside, bound⟩ := validateHistoryRows_entries walked member
  simp only [List.mem_filterMap,exists_eq_right] at inside
  obtain ⟨row, source, read⟩ := forall₂_right (mapAll_ok_iff.mp selected) inside
  simp only [turnOutboxRows,List.mem_mergeSort,List.mem_filter,Bool.and_eq_true,decide_eq_true_eq] at source
  exact ⟨bound, row, source.1, source.2.1, source.2.2, read⟩

theorem validateActiveLease_held {target : TurnOutboxRecord} {row : OutboxRow} {owner token : String}
    {now : DateTime} (reads : target.Reads db row)
    (done : validateActiveLease target owner token now = .ok ()) : row.heldBy owner token now.millis = true := by
  simp only [validateActiveLease,bind_ok_iff,ensure_ok_iff] at done
  obtain ⟨_, _, _, ⟨status, hasOwner, hasToken⟩, leaseUntil, lease, early⟩ := done
  have columns := reads.columns
  rcases parseTimestampOption_ok_iff.mp reads.leaseUntil with ⟨_, none⟩ | ⟨ms, t, some, same, parsed⟩
  · simp [none] at lease
  · rw [same] at lease
    cases lease
    have early := DateTime.lt_def.mp early
    rw [DateTime.nanos_of_ofMillis parsed] at early
    have : now.millis < ms := by unfold DateTime.millis; omega
    rw [columns] at status hasOwner hasToken
    simp [OutboxRow.heldBy,status,hasOwner,hasToken,some,this]

/-- What a dispatch snapshot has checked of its target. -/
structure Targets (host : Host) (db : Database) (tenantId outboxId owner token : String) (now : DateTime)
    (target : ValidatedHistoryEntry) (row : OutboxRow) : Prop where
  member : row ∈ db.outbox
  key : row.key = (tenantId, outboxId)
  reads : target.outbox.Reads db row
  active : row.status ≠ .delivered → ∃ i, Holds db tenantId outboxId owner token now i row
  turn : ∃ t ∈ db.turns, t.key = (row.tenantId, row.turnId) ∧ target.binding.principalId = t.principalId
  eventKey : target.binding.idempotencyKey = row.outboxId
  eventType : target.binding.eventType = row.eventType
  payload : fromText host row.payloadJson = .ok target.binding.payload

theorem loadDispatchSnapshot_ok {tenantId outboxId owner token : String} {now : DateTime}
    {allowDelivered : Bool} {snapshot : DispatchSnapshot} (ordered : Ordered db)
    (done : loadDispatchSnapshot host db tenantId outboxId owner token now allowDelivered = .ok snapshot) :
    (∃ row, Targets host db tenantId outboxId owner token now snapshot.target row ∧
      (row.status = .delivered → allowDelivered = true)) ∧
      snapshot.databaseInstanceId = db.instanceId := by
  simp only [loadDispatchSnapshot,bind_ok_iff,required_ok_iff,Except.ok.injEq] at done
  obtain ⟨loaded, outboxRead, turn, turnRead, history, walked, target, picked, _, checked, _, _, rfl⟩ := done
  obtain ⟨first, found, reads₀⟩ := requireOutbox_reads outboxRead
  obtain ⟨loadedTurn, turnKey⟩ := requireTurn_loaded turnRead
  obtain ⟨turnTenant, turnId⟩ := Prod.mk.inj turnKey
  obtain ⟨bound, row, member, tenant, ofTurn, read⟩ :=
    validateTurnHistory_entries walked (List.mem_of_find?_eq_some picked)
  have reads := selectOutbox_reads read
  have id : target.outbox.outboxId = outboxId := by simpa using List.find?_some picked
  have columns := reads.columns
  have key : row.key = (tenantId, outboxId) := by
    simp only [OutboxEntry.key,Prod.mk.injEq]
    exact ⟨tenant.trans turnTenant, by rw [← id,columns]⟩
  refine ⟨⟨row, ⟨member, key, reads, ?_, ?_, ?_, ?_, ?_⟩, ?_⟩, rfl⟩
  · intro undelivered
    simp only [validateTarget,bind_ok_iff] at checked
    obtain ⟨head, answer, checked⟩ := checked
    rw [columns,if_pos undelivered] at checked
    simp only [bind_ok_iff,ensure_ok_iff] at checked
    obtain ⟨_, atHead, lease⟩ := checked
    rw [atHead,columns] at answer
    obtain ⟨i, top, isHead, own⟩ := ordered.tenantOutboxHead_ok answer
    obtain rfl := ordered.keyed.eq_of_key isHead.mem member own
    exact ⟨i, isHead, key, validateActiveLease_held reads lease, validateActiveLease_monotone reads lease⟩
  · exact ⟨turn.toTurnRow, Table.mem_of_select loadedTurn.found,
      Prod.ext tenant.symm ofTurn.symm, bound.principal⟩
  · rw [bound.key,columns]
  · rw [bound.eventType,columns]
  · rw [bound.payload]
    exact selectOutbox_payload read
  · intro delivered
    simp only [validateTarget,bind_ok_iff] at checked
    obtain ⟨_, _, checked⟩ := checked
    rw [columns,if_neg (by simp [delivered]),ensure_ok_iff] at checked
    exact checked

/-- `complete_outbox` finds the row delivered already, or delivers it. -/
inductive Completes (host : Host) (db : Database) (tenantId outboxId owner token : String) (now : DateTime)
    (row : OutboxRow) : Database → OutboxCompletion → Prop
  | already (delivered : row.status = .delivered) :
      Completes host db tenantId outboxId owner token now row db .alreadyDelivered
  | repaired (v : EvidenceRow) (delivered : row.status = .delivered) (key : v.key = row.key)
      (fresh : ∀ other ∈ db.verifiedCommits, other.key ≠ v.key) :
      Completes host db tenantId outboxId owner token now row
        { db with verifiedCommits := db.verifiedCommits ++ [v] } .alreadyDelivered
  | delivered (i : Nat) (v : EvidenceRow) (holds : Holds db tenantId outboxId owner token now i row)
      (fresh : ∀ other ∈ db.verifiedCommits, other.key ≠ v.key) (verified : Verified host db row v)
      (readable : Readable host ({ db with verifiedCommits := db.verifiedCommits ++ [v] }.setOutbox row.key
        (·.deliver v.ledgerEventId now.millis)) row.key) :
      Completes host db tenantId outboxId owner token now row
        ({ db with verifiedCommits := db.verifiedCommits ++ [v] }.setOutbox row.key
          (·.deliver v.ledgerEventId now.millis)) .delivered

/-- Evidence of the row is there already, or is written from the commit. -/
theorem ensureVerifiedCommitEvidence_ok {target : TurnOutboxRecord} {commit : VerifiedEventCommit}
    (done : ensureVerifiedCommitEvidence target commit db = .ok db') :
    (target.verified.isSome = true ∧ db' = db) ∨
      (target.verified = none ∧ ∃ v : EvidenceRow, v.key = (target.tenantId, target.outboxId) ∧
        v.ledgerEventId = commit.eventId ∧ v.databaseInstanceId = commit.databaseInstanceId ∧
        (∀ other ∈ db.verifiedCommits, other.key ≠ v.key) ∧
        db' = { db with verifiedCommits := db.verifiedCommits ++ [v] }) := by
  unfold ensureVerifiedCommitEvidence at done
  cases present : target.verified with
  | none =>
    simp only [present,insertEvidence,bind_ok_iff,ensure_ok_iff,Except.ok.injEq] at done
    obtain ⟨_, fresh, _, _, _, _, rfl⟩ := done
    exact Or.inr ⟨rfl, _, rfl, rfl, rfl, fresh, rfl⟩
  | some v =>
    simp only [present,bind_ok_iff,Except.ok.injEq] at done
    obtain ⟨_, _, rfl⟩ := done
    exact Or.inl ⟨rfl, rfl⟩

theorem completeOutbox_ok {tenantId outboxId owner token : String} {commit : VerifiedEventCommit}
    {now : DateTime} {ledgerPath ledgerInstanceId : String} {completion : OutboxCompletion}
    (ordered : Ordered db)
    (done : completeOutbox host tenantId outboxId owner token commit now ledgerPath ledgerInstanceId db =
      .ok (db', completion)) :
    ∃ row ∈ db.outbox, row.key = (tenantId, outboxId) ∧
      Completes host db tenantId outboxId owner token now row db' completion := by
  simp only [completeOutbox,bind_ok_iff,mapError_ok_iff,VerifiedEventCommit.matchesBindingInConnection,
    ensure_ok_iff,Except.ok.injEq] at done
  obtain ⟨_, _, _, _, _, _, _, _, _, _, _, _, _, _, _, _, current, loaded, _, _, _, ⟨live, verifies, rfl⟩, _,
    ⟨_, sameInstance, _, matched⟩, done⟩ := done
  obtain ⟨⟨row, targets, _⟩, instanceId⟩ := loadDispatchSnapshot_ok ordered loaded
  obtain rfl : commit = live := by simpa using matched
  obtain ⟨eventId, _, _, event, inLedger, eventKey, eventType⟩ := verifyExisting_ok verifies
  refine ⟨row, targets.member, targets.key, ?_⟩
  have columns := targets.reads.columns
  have sameKey : (current.target.outbox.tenantId, current.target.outbox.outboxId) = row.key := by
    rw [columns]; rfl
  simp only [deliverOutbox,bind_ok_iff] at done
  obtain ⟨db₁, evidence, done⟩ := done
  by_cases status : row.status = .delivered
  · rw [columns,if_pos status] at done
    simp only [bind_ok_iff,Except.ok.injEq,Prod.mk.injEq] at done
    obtain ⟨_, _, _, _, _, _, rfl, rfl⟩ := done
    rcases ensureVerifiedCommitEvidence_ok evidence with ⟨_, rfl⟩ | ⟨_, v, key, _, _, fresh, rfl⟩
    · exact .already status
    · exact .repaired v status (key.trans sameKey) fresh
  · rw [columns,if_neg status] at done
    rcases ensureVerifiedCommitEvidence_ok evidence with ⟨present, _⟩ | ⟨_, v, key, event, ofInstance, fresh, rfl⟩
    · have matches_ := targets.reads.evidence
      obtain ⟨found, isSome⟩ := Option.isSome_iff_exists.mp present
      simp [isSome,OutboxRow.evidenceMatches,status] at matches_
    · have key := key.trans sameKey
      simp only [bind_ok_iff,Except.ok.injEq,Prod.mk.injEq] at done
      obtain ⟨_, _, _, updated, _, reloaded, _, _, _, _, _, _, rfl, rfl⟩ := done
      obtain ⟨_, _, _, rfl⟩ := updateOutbox_ok updated
      obtain ⟨i, holds⟩ := targets.active status
      have verified : Verified host db row v :=
        { key
          event := by
            obtain ⟨t, member, own, principal⟩ := targets.turn
            refine ⟨t, member, own, ?_⟩
            rw [event,eventId,IdempotentEventBinding.expectedEventId,targets.eventKey,principal]
          inLedger := ⟨_, inLedger, by rw [event,eventId,eventKey], eventType.trans targets.eventType⟩
          instanceId := by rw [ofInstance,← sameInstance,instanceId] }
      rw [← event] at reloaded ⊢
      exact .delivered i v holds fresh verified ⟨_, reloaded⟩

end Zaion.Turn
