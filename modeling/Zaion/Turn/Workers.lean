import Zaion.Turn.Accepts

/-! Dispatcher workers. Each follows `dispatch_claim`: it leases the head of a tenant's queue,
validates it, finds or appends its event and completes it. A worker may be overtaken or crash
between any two calls; what it holds by then is what it appends, at whatever time. -/
namespace Zaion.Turn

open Lib Ledger

/-- How far a worker is with its claim. The public key comes from the resolver, and the private
key too, once the event was not found. -/
inductive Phase where
  | idle
  | claimed (claim : TurnOutboxRecord)
  | keyed (claim : TurnOutboxRecord) (publicKey : List UInt8) (keypair : Option Keypair)
  | renewed (claim : TurnOutboxRecord) (publicKey : List UInt8) (keypair : Option Keypair)
  | validated (publicKey : List UInt8) (keypair : Option Keypair) (outbox : SigningValidatedOutbox)
  | unsigned (publicKey : List UInt8) (outbox : SigningValidatedOutbox)
  | appending (keypair : Keypair) (outbox : SigningValidatedOutbox)
  | committed (outbox : SigningValidatedOutbox) (commit : VerifiedEventCommit)

namespace Phase

/-- The claim a worker is at. -/
def claim : Phase → Option TurnOutboxRecord
  | idle => none
  | claimed claim | keyed claim _ _ | renewed claim _ _ => some claim
  | validated _ _ outbox | unsigned _ outbox | appending _ outbox | committed outbox _ => some outbox.outbox

/-- What it has validated. -/
def held : Phase → Option SigningValidatedOutbox
  | validated _ _ outbox | unsigned _ outbox | appending _ outbox | committed outbox _ => some outbox
  | _ => none

end Phase

def TurnOutboxRecord.owner (claim : TurnOutboxRecord) : String := claim.leaseOwner.getD "missing"
def TurnOutboxRecord.token (claim : TurnOutboxRecord) : String := claim.leaseToken.getD "missing"

/-- The calls of a worker. Clock values, keys and new lease tokens are what its surroundings give it. -/
inductive Act where
  | claim (tenantId leaseOwner : String) (now : DateTime) (leaseDuration : Int) (leaseToken : String)
  | resolvePublicKey (publicKey : List UInt8)
  | renew (now : DateTime) (leaseDuration : Int)
  | revalidate (now : DateTime)
  | verifyExisting
  | resolveSigner (keypair : Keypair)
  | append (createdAt : String)
  | complete (now : DateTime)
  | release (now availableAt : DateTime) (error : String)
  | quarantine (failure : OutboxDispatchFailure) (exhausted : Bool) (now : DateTime)
  | giveUp

section

variable (host : Host) (db : Database)

def claimBy (tenantId leaseOwner : String) (now : DateTime) (leaseDuration : Int) (leaseToken : String) : Database × Phase :=
  match claimNextOutbox host tenantId leaseOwner now leaseDuration leaseToken db with
  | .ok (db', some claim) => (db', .claimed claim)
  | .ok (db', none) => (db', .idle)
  | .error _ => (db, .idle)

/-- A renewed lease goes with the keys it was renewed under. -/
def renewBy (phase : Phase) (claim : TurnOutboxRecord) (publicKey : List UInt8) (keypair : Option Keypair) (now : DateTime)
    (leaseDuration : Int) : Database × Phase :=
  match renewOutboxLease host claim.tenantId claim.outboxId claim.owner claim.token now leaseDuration db with
  | .ok (db', claim) => (db', .renewed claim publicKey keypair)
  | .error _ => (db, phase)

def revalidateBy (phase : Phase) (claim : TurnOutboxRecord) (publicKey : List UInt8) (keypair : Option Keypair) (now : DateTime) :
    Phase :=
  match revalidateOutboxForSigning host claim.tenantId claim.outboxId claim.owner claim.token now db.path db.instanceId
      publicKey db with
  | .ok outbox => .validated publicKey keypair outbox
  | .error _ => phase

/-- `verify_existing_idempotent_event`: an event that is there is a commit. One that is not there needs the private key, and
with it the append. -/
def verifyBy (phase : Phase) (publicKey : List UInt8) (outbox : SigningValidatedOutbox) (missing : Phase) : Phase :=
  match verifyExistingIdempotentEvent host db.ledger publicKey outbox.binding with
  | .ok commit => .committed outbox commit
  | .error (.notFound _) => missing
  | .error _ => phase

/-- An append that fails leaves the worker to look once more. -/
def appendBy (createdAt : String) (keypair : Keypair) (outbox : SigningValidatedOutbox) : Database × Phase :=
  let (events, result) := appendVerifiedIdempotentEvent host db.ledger createdAt keypair outbox.binding
  ({ db with events }, match result with
    | .ok commit => .committed outbox commit
    | .error _ => .appending keypair outbox)

def completeBy (phase : Phase) (outbox : SigningValidatedOutbox) (commit : VerifiedEventCommit) (now : DateTime) :
    Database × Phase :=
  match completeOutbox host outbox.outbox.tenantId outbox.outbox.outboxId outbox.outbox.owner outbox.outbox.token commit now
      db.path db.instanceId db with
  | .ok (db', _) => (db', .idle)
  | .error _ => (db, phase)

/-- One call of a worker; a call that the phase has no place for does nothing. -/
def Phase.act (phase : Phase) (act : Act) : Database × Phase :=
  match phase, act with
  | .idle, .claim tenantId leaseOwner now leaseDuration leaseToken =>
    claimBy host db tenantId leaseOwner now leaseDuration leaseToken
  | .claimed claim, .resolvePublicKey publicKey =>
    if claimedPrincipalId claim = .ok (host.principalOf publicKey) then (db, .keyed claim publicKey none) else (db, phase)
  | .keyed claim publicKey keypair, .renew now leaseDuration => renewBy host db phase claim publicKey keypair now leaseDuration
  | .validated publicKey keypair outbox, .renew now leaseDuration =>
    renewBy host db phase outbox.outbox publicKey keypair now leaseDuration
  | .renewed claim publicKey keypair, .revalidate now => (db, revalidateBy host db phase claim publicKey keypair now)
  | .validated publicKey none outbox, .verifyExisting => (db, verifyBy host db phase publicKey outbox (.unsigned publicKey outbox))
  | .validated publicKey (some keypair) outbox, .verifyExisting =>
    (db, verifyBy host db phase publicKey outbox (.appending keypair outbox))
  | .unsigned publicKey outbox, .resolveSigner keypair =>
    if keypair.publicKey = publicKey then (db, .keyed outbox.outbox publicKey (some keypair)) else (db, phase)
  | .appending keypair outbox, .append createdAt => appendBy host db createdAt keypair outbox
  | .appending keypair outbox, .verifyExisting => (db, verifyBy host db phase keypair.publicKey outbox phase)
  | .committed outbox commit, .complete now => completeBy host db phase outbox commit now
  | phase, .release now availableAt error =>
    match phase.claim with
    | some claim => ((Op.releaseOutbox claim.tenantId claim.outboxId claim.owner claim.token now availableAt error).apply host db, .idle)
    | none => (db, phase)
  | phase, .quarantine failure exhausted now =>
    match phase.claim with
    | some claim => ((Op.quarantineOutbox claim failure exhausted now).apply host db, .idle)
    | none => (db, phase)
  | _, .giveUp => (db, .idle)
  | phase, _ => (db, phase)

end

structure System where
  db : Database
  phase : Nat → Phase

/-- A call from outside, or a call of a worker. -/
inductive Action where
  | call (op : Op)
  | worker (w : Nat) (act : Act)

def System.step (host : Host) (s : System) : Action → System
  | .call op => { s with db := op.apply host s.db }
  | .worker w act =>
    let (db, phase) := (s.phase w).act host s.db act
    ⟨db, Function.update s.phase w phase⟩

def System.run (host : Host) (s : System) (actions : List Action) : System := actions.foldl (System.step host) s

def System.start (path instanceId : String) : System := ⟨Database.created path instanceId, fun _ => .idle⟩

def isTurnState (eventType : String) : Bool := startsWithText eventType "turn.state."

/-- The types of the events a write appends. -/
def eventTypes : Write → List String
  | .appendEventWithParent _ _ _ _ eventType _ _ _ _ | .appendSignedEventWithParent _ _ _ _ eventType _ _ _
  | .appendSignedIdempotentEventWithParent _ _ _ eventType _ _ _ _ => [eventType]
  | .insertEventWithIdAndParent event => [event.eventType]
  | .insertEventsWithIdsAtomic events => events.map LedgerEvent.eventType

/-- The call appends no turn-state event. -/
def Op.Foreign : Op → Prop
  | .ledgerWrite write => ∀ eventType ∈ eventTypes write, isTurnState eventType = false
  | .appendVerified _ _ binding => isTurnState binding.eventType = false
  | _ => True

/-- Turn-state events come from workers only. -/
def Action.Foreign : Action → Prop
  | .call op => op.Foreign
  | .worker _ _ => True

variable {host : Host} {limits : Limits} {db db' : Database}

/-- What a call of a worker does to the database. -/
inductive Acts (host : Host) (db : Database) (phase : Phase) : Database → Prop
  | nothing : Acts host db phase db
  | calls (op : Op) (foreign : op.Foreign) : Acts host db phase (op.apply host db)
  | appends (outbox : SigningValidatedOutbox) (createdAt : String) (keypair : Keypair) (held : phase.held = some outbox) :
      Acts host db phase ((Op.appendVerified createdAt keypair outbox.binding).apply host db)

theorem claimBy_acts (phase : Phase) (tenantId leaseOwner : String) (now : DateTime) (leaseDuration : Int) (leaseToken : String) :
    Acts host db phase (claimBy host db tenantId leaseOwner now leaseDuration leaseToken).1 := by
  have same : (claimBy host db tenantId leaseOwner now leaseDuration leaseToken).1 =
      (Op.claimNextOutbox tenantId leaseOwner now leaseDuration leaseToken).apply host db := by
    simp only [claimBy,Op.apply,Op.exec]
    cases claimNextOutbox host tenantId leaseOwner now leaseDuration leaseToken db with
    | error e => rfl
    | ok result =>
      obtain ⟨db', claim⟩ := result
      cases claim <;> rfl
  rw [same]
  exact .calls _ trivial

theorem renewBy_acts (phase : Phase) (claim : TurnOutboxRecord) (publicKey : List UInt8) (keypair : Option Keypair)
    (now : DateTime) (leaseDuration : Int) :
    Acts host db phase (renewBy host db phase claim publicKey keypair now leaseDuration).1 := by
  have same : (renewBy host db phase claim publicKey keypair now leaseDuration).1 =
      (Op.renewOutboxLease claim.tenantId claim.outboxId claim.owner claim.token now leaseDuration).apply host db := by
    simp only [renewBy,Op.apply,Op.exec]
    cases renewOutboxLease host claim.tenantId claim.outboxId claim.owner claim.token now leaseDuration db <;> rfl
  rw [same]
  exact .calls _ trivial

theorem completeBy_acts (phase : Phase) (outbox : SigningValidatedOutbox) (commit : VerifiedEventCommit) (now : DateTime) :
    Acts host db phase (completeBy host db phase outbox commit now).1 := by
  have same : (completeBy host db phase outbox commit now).1 = (Op.completeOutbox outbox.outbox.tenantId
      outbox.outbox.outboxId outbox.outbox.owner outbox.outbox.token commit now db.path db.instanceId).apply host db := by
    simp only [completeBy,Op.apply,Op.exec]
    cases completeOutbox host outbox.outbox.tenantId outbox.outbox.outboxId outbox.outbox.owner outbox.outbox.token commit now
      db.path db.instanceId db <;> rfl
  rw [same]
  exact .calls _ trivial

theorem Phase.act_acts (phase : Phase) (act : Act) : Acts host db phase (phase.act host db act).1 := by
  unfold Phase.act
  split
  · exact claimBy_acts _ _ _ _ _ _
  · split <;> exact .nothing
  · exact renewBy_acts _ _ _ _ _ _
  · exact renewBy_acts _ _ _ _ _ _
  · exact .nothing
  · exact .nothing
  · exact .nothing
  · split <;> exact .nothing
  · exact .appends _ _ _ rfl
  · exact .nothing
  · exact completeBy_acts _ _ _ _
  · split
    · exact .calls _ trivial
    · exact .nothing
  · split
    · exact .calls _ trivial
    · exact .nothing
  · exact .nothing
  · exact .nothing

/-- The outbox row was validated in this database. -/
def Revalidated (host : Host) (db : Database) (outbox : SigningValidatedOutbox) : Prop :=
  ∃ tenantId outboxId leaseOwner leaseToken now ledgerPath ledgerInstanceId publicKey,
    revalidateOutboxForSigning host tenantId outboxId leaseOwner leaseToken now ledgerPath ledgerInstanceId publicKey db = .ok outbox

theorem claimBy_held {tenantId leaseOwner : String} {now : DateTime} {leaseDuration : Int} {leaseToken : String} :
    (claimBy host db tenantId leaseOwner now leaseDuration leaseToken).2.held = none := by
  unfold claimBy
  split <;> rfl

theorem renewBy_held {phase : Phase} {claim : TurnOutboxRecord} {publicKey : List UInt8} {keypair : Option Keypair}
    {now : DateTime} {leaseDuration : Int} {outbox : SigningValidatedOutbox}
    (held : (renewBy host db phase claim publicKey keypair now leaseDuration).2.held = some outbox) : phase.held = some outbox := by
  unfold renewBy at held
  split at held
  · cases held
  · exact held

theorem verifyBy_held {phase : Phase} {publicKey : List UInt8} {outbox outbox' : SigningValidatedOutbox} {missing : Phase}
    (own : phase.held = some outbox) (kept : missing.held = some outbox)
    (held : (verifyBy host db phase publicKey outbox missing).held = some outbox') : phase.held = some outbox' := by
  unfold verifyBy at held
  split at held
  · exact own.trans held
  · exact own.trans (kept.symm.trans held)
  · exact held

/-- A worker holds what it held, or what it has just validated. -/
theorem Phase.act_held {phase : Phase} {act : Act} {outbox : SigningValidatedOutbox}
    (held : (phase.act host db act).2.held = some outbox) :
    phase.held = some outbox ∨ ((phase.act host db act).1 = db ∧ Revalidated host db outbox) := by
  unfold Phase.act at held ⊢
  split at held
  · rw [claimBy_held] at held
    cases held
  · split at held <;> cases held
  · exact .inl (renewBy_held held)
  · exact .inl (renewBy_held held)
  · unfold revalidateBy at held
    split at held
    · rename_i validated
      cases held
      exact .inr ⟨rfl, _, _, _, _, _, _, _, _, validated⟩
    · cases held
  · exact .inl (verifyBy_held rfl rfl held)
  · exact .inl (verifyBy_held rfl rfl held)
  · split at held
    · cases held
    · exact .inl held
  · unfold appendBy at held
    simp only at held
    split at held <;> exact .inl held
  · exact .inl (verifyBy_held rfl rfl held)
  · unfold completeBy at held
    split at held
    · cases held
    · exact .inl held
  · split at held
    · cases held
    · exact .inl held
  · split at held
    · cases held
    · exact .inl held
  · cases held
  · exact .inl held

/-- Rows and turns stay where they are, and what is delivered stays delivered. -/
structure Later (db db' : Database) : Prop where
  rows : ∀ (i : Nat) (o : OutboxRow), db.outbox[i]? = some o → ∃ o', db'.outbox[i]? = some o' ∧
    o'.toOutboxEntry = o.toOutboxEntry ∧ (o.status = .delivered → o'.status = .delivered)
  turns : TurnsKept db.turns db'.turns

theorem Later.same (outbox : db'.outbox = db.outbox) (turns : TurnsKept db.turns db'.turns) : Later db db' :=
  ⟨fun _ o here => ⟨o, outbox ▸ here, rfl, id⟩, turns⟩

theorem Later.trans {db'' : Database} (first : Later db db') (second : Later db' db'') : Later db db'' := by
  refine ⟨?_, first.turns.trans second.turns⟩
  intro i o here
  obtain ⟨o', there, entry, kept⟩ := first.rows i o here
  obtain ⟨o'', last, entry', kept'⟩ := second.rows i o' there
  exact ⟨o'', last, entry'.trans entry, fun delivered => kept' (kept delivered)⟩

theorem Later.append (entry : OutboxEntry) (outbox : db'.outbox = db.outbox ++ [entry.pending])
    (turns : TurnsKept db.turns db'.turns) : Later db db' := by
  refine ⟨?_, turns⟩
  intro i o here
  refine ⟨o, ?_, rfl, id⟩
  rw [outbox,List.getElem?_append_left (List.getElem?_eq_some_iff.mp here).1,here]

/-- A row that is not delivered changes. -/
theorem Later.touch {i : Nat} {row row' : OutboxRow} (position : db.outbox[i]? = some row) (undelivered : row.status ≠ .delivered)
    (outbox : db'.outbox = db.outbox.set i row') (entry : row'.toOutboxEntry = row.toOutboxEntry)
    (turns : db'.turns = db.turns) : Later db db' := by
  refine ⟨?_, turns ▸ .refl _⟩
  intro j o here
  by_cases same : i = j
  · obtain rfl := same
    obtain rfl := Option.some.inj (position.symm.trans here)
    refine ⟨row', ?_, entry, fun delivered => absurd delivered undelivered⟩
    rw [outbox,List.getElem?_set_self (List.getElem?_eq_some_iff.mp position).1]
  · exact ⟨o, by rw [outbox,List.getElem?_set_ne same,here], rfl, id⟩

theorem Step.later (ordered : Ordered db) (step : Step host limits db db') : Later db db' := by
  have turns := step.turnsKept
  cases step with
  | turn step =>
    cases step with
    | admitRow | advance => exact .append _ rfl turns
    | addActor | clear => exact .same rfl turns
  | claim i row _ _ _ _ head =>
    exact .touch head.position head.undelivered (congrArg Database.outbox (ordered.setOutbox_eq head.position)) rfl rfl
  | renew i row _ _ _ _ head =>
    exact .touch head.position head.undelivered (congrArg Database.outbox (ordered.setOutbox_eq head.position)) rfl rfl
  | release i row _ _ _ _ _ head =>
    exact .touch head.position head.undelivered (congrArg Database.outbox (ordered.setOutbox_eq head.position)) rfl rfl
  | quarantine i row _ _ _ _ _ head =>
    exact .touch head.position head.undelivered (ordered.keyed.modify_eq_set head.position) rfl rfl
  | deliver i row _ _ _ _ head =>
    exact .touch head.position head.undelivered (ordered.keyed.modify_eq_set head.position) rfl rfl
  | repair | ledger | migrate => exact .same rfl turns

theorem Op.apply_later {op : Op} (sound : Sound host unlimited db) : Later db (op.apply host db) := by
  have steps : Steps host unlimited db (op.apply host db) := Op.apply_steps sound (op.within_unlimited db)
  refine (steps_keep (P := fun a => Sound host unlimited a ∧ Later db a) ?_ steps ⟨sound, .same rfl (.refl _)⟩).2
  exact fun both step => ⟨both.1.step step, both.2.trans (step.later both.1.ordered)⟩

/-- The rows of a tenant before a place are delivered. -/
def Cleared (db : Database) (i : Nat) (tenantId : String) : Prop :=
  ∀ (j : Nat) (earlier : OutboxRow), j < i → db.outbox[j]? = some earlier → earlier.tenantId = tenantId →
    earlier.status = .delivered

/-- An event stands for a row that has been at the head of its queue. -/
def Sourced (host : Host) (db : Database) (eventId eventType payloadJson : String) : Prop :=
  ∃ i o principalId, db.outbox[i]? = some o ∧ Cleared db i o.tenantId ∧ PrincipalOf db.turns o.toOutboxEntry principalId ∧
    eventId = deterministicIdempotentEventId host principalId o.outboxId ∧ eventType = o.eventType ∧ payloadJson = o.payloadJson

theorem Sourced.later {eventId eventType payloadJson : String} (sourced : Sourced host db eventId eventType payloadJson)
    (later : Later db db') : Sourced host db' eventId eventType payloadJson := by
  obtain ⟨i, o, principalId, here, cleared, principal, id, type, payload⟩ := sourced
  obtain ⟨o', there, entry, _⟩ := later.rows i o here
  refine ⟨i, o', principalId, there, ?_, entry ▸ principal.kept later.turns, entry ▸ id, entry ▸ type, entry ▸ payload⟩
  intro j earlier before present tenant
  have inside : j < db.outbox.length := before.trans (List.getElem?_eq_some_iff.mp here).1
  obtain ⟨old, found, same, kept⟩ := later.rows j _ (List.getElem?_eq_getElem inside)
  obtain rfl := Option.some.inj (found.symm.trans present)
  apply kept
  refine cleared j _ before (List.getElem?_eq_getElem inside) ?_
  rw [same,entry] at tenant
  exact tenant

theorem append_mem {rows : List EventRow} {event : LedgerEvent} {policy : ExistingEventPolicy} {result : List EventRow × Bool}
    (done : appendPreparedEventInTransaction host rows (event.prepared host) policy = .ok result) {e : EventRow}
    (member : e ∈ result.1) :
    e ∈ rows ∨ (e.eventId = event.eventId ∧ e.eventType = event.eventType ∧ e.payloadJson = host.toText event.payload) := by
  unfold appendPreparedEventInTransaction at done
  split at done
  · simp only [bind_ok_iff,Except.ok.injEq] at done
    obtain ⟨_, _, rfl⟩ := done
    exact .inl member
  · simp only [bind_ok_iff,Except.ok.injEq] at done
    obtain ⟨_, _, rows', inserted, rfl⟩ := done
    obtain ⟨rfl, _⟩ := insertRow_ok inserted
    rcases List.mem_append.mp member with old | new
    · exact .inl old
    · rw [List.mem_singleton.mp new]
      exact .inr ⟨rfl, rfl, rfl⟩

/-- What `append_verified_idempotent_event` adds is the event of its binding. -/
theorem appendVerified_mem {ledger : LiveLedger} {createdAt : String} {keypair : Keypair} {binding : IdempotentEventBinding}
    {e : EventRow} (member : e ∈ (appendVerifiedIdempotentEvent host ledger createdAt keypair binding).1) :
    e ∈ ledger.events ∨ (e.eventId = binding.expectedEventId host ∧ e.eventType = binding.eventType ∧
      e.payloadJson = host.toText binding.payload) := by
  unfold appendVerifiedIdempotentEvent at member
  split at member
  · exact .inl member
  · rename_i matched
    split at member
    · exact .inl member
    · rename_i appended
      simp only [appendSignedIdempotentEventWithParent,bind_ok_iff] at appended
      obtain ⟨_, _, appended⟩ := appended
      rcases append_mem appended member with old | ⟨id, rest⟩
      · exact .inl old
      · rw [verifyPrincipalBinding,ensure_ok_iff] at matched
        rw [← matched] at id
        exact .inr ⟨id, rest⟩

theorem insertEvents_mem {rows : List EventRow} {events : List LedgerEvent}
    {result : List EventRow × List EventInsertDisposition} (done : insertEventsWithIdsAtomic host rows events = .ok result)
    {e : EventRow} (member : e ∈ result.1) : e ∈ rows ∨ e.eventType ∈ events.map LedgerEvent.eventType := by
  induction events generalizing rows result with
  | nil =>
    cases done
    exact .inl member
  | cons event events ih =>
    simp only [insertEventsWithIdsAtomic,bind_ok_iff,Except.ok.injEq] at done
    obtain ⟨step, first, rest, others, rfl⟩ := done
    rcases ih others member with old | new
    · rcases append_mem first old with old | ⟨_, type, _⟩
      · exact .inl old
      · exact .inr (by simp [type])
    · exact .inr (List.mem_cons_of_mem _ new)

theorem append_type {rows : List EventRow} {event : LedgerEvent} {policy : ExistingEventPolicy} {result : List EventRow × Bool}
    (done : appendPreparedEventInTransaction host rows (event.prepared host) policy = .ok result) {e : EventRow}
    (member : e ∈ result.1) : e ∈ rows ∨ e.eventType ∈ [event.eventType] := by
  rcases append_mem done member with old | ⟨_, type, _⟩
  · exact .inl old
  · exact .inr (List.mem_singleton.mpr type)

theorem write_mem {rows : List EventRow} {write : Write} {e : EventRow} (member : e ∈ write.apply host rows) :
    e ∈ rows ∨ e.eventType ∈ eventTypes write := by
  unfold Write.apply at member
  split at member
  · rename_i rows' done
    cases write with
    | insertEventsWithIdsAtomic events =>
      simp only [Write.exec,map_ok_iff] at done
      obtain ⟨result, done, rfl⟩ := done
      exact insertEvents_mem done member
    | appendSignedIdempotentEventWithParent =>
      simp only [Write.exec,map_ok_iff,appendSignedIdempotentEventWithParent,bind_ok_iff] at done
      obtain ⟨result, ⟨_, _, done⟩, rfl⟩ := done
      exact append_type done member
    | insertEventWithIdAndParent | appendEventWithParent | appendSignedEventWithParent =>
      simp only [Write.exec,map_ok_iff] at done
      obtain ⟨result, done, rfl⟩ := done
      exact append_type done member
  · exact .inl member

/-- The text of a payload is the text it was read from. -/
theorem TablesSound.payload_text (sound : TablesSound host limits db) (readsBack : host.ReadsBack) {o : OutboxRow}
    (member : o ∈ db.outbox) {payload : Json} (parsed : fromText host o.payloadJson = .ok payload) :
    host.toText payload = o.payloadJson := by
  obtain ⟨t, stage, before, n, bound, same⟩ := sound.stage member
  have told : Told host (stage.entry host t.toTurnCore before n) _ := stage.told readsBack bound
  rw [same] at parsed ⊢
  obtain rfl := Except.ok.inj (told.parsed.symm.trans parsed)
  rfl

theorem TablesSound.isTurnState (sound : TablesSound host limits db) {o : OutboxRow} (member : o ∈ db.outbox) :
    isTurnState o.eventType = true := by
  obtain ⟨t, stage, before, n, _, same⟩ := sound.stage member
  rw [same]
  simp [Turn.isTurnState,Stage.entry,OutboxEntry.written,TurnState.eventType,startsWithText]

/-- No two rows have the same payload. -/
theorem TablesSound.payload_injective (sound : TablesSound host limits db) (readsBack : host.ReadsBack) {o o' : OutboxRow}
    (member : o ∈ db.outbox) (member' : o' ∈ db.outbox) (same : o.payloadJson = o'.payloadJson) : o = o' := by
  obtain ⟨t, stage, before, n, bound, entry⟩ := sound.stage member
  obtain ⟨t', stage', before', n', bound', entry'⟩ := sound.stage member'
  have told : Told host (stage.entry host t.toTurnCore before n) _ := stage.told readsBack bound
  have told' : Told host (stage'.entry host t'.toTurnCore before' n') _ := stage'.told readsBack bound'
  have parsed := told.parsed
  rw [← entry,same,entry'] at parsed
  have payload := Except.ok.inj (told'.parsed.symm.trans parsed)
  simp only [Stage.payload,turnPayload,Json.obj.injEq,List.cons.injEq,Prod.mk.injEq,Json.str.injEq,true_and] at payload
  refine sound.ordered.keyed.eq_of_key member member' ?_
  rw [outboxKey,outboxKey,entry,entry']
  exact Prod.ext payload.2.1.symm payload.1.symm

/-- A row validated for signing is at the head of its queue. -/
theorem Revalidated.sourced {outbox : SigningValidatedOutbox} (readsBack : host.ReadsBack) (sound : Sound host limits db)
    (revalidated : Revalidated host db outbox) :
    Sourced host db (outbox.binding.expectedEventId host) outbox.binding.eventType (host.toText outbox.binding.payload) := by
  obtain ⟨tenantId, outboxId, leaseOwner, leaseToken, now, _, _, _, done⟩ := revalidated
  simp only [revalidateOutboxForSigning,dispatchSnapshot,bind_ok_iff,Except.ok.injEq] at done
  obtain ⟨_, _, _, _, snapshot, ⟨_, _, loaded⟩, _, _, _, _, rfl⟩ := done
  obtain ⟨⟨row, targets, undelivered⟩, _⟩ := loadDispatchSnapshot_ok sound.ordered loaded
  have status : row.status ≠ .delivered := fun delivered => by cases undelivered delivered
  obtain ⟨i, holds⟩ := targets.active status
  obtain ⟨t, member, key, principal⟩ := targets.turn
  refine ⟨i, row, t.principalId, holds.head.position, holds.head.first, ⟨t, member, key, rfl⟩, ?_, targets.eventType,
    sound.payload_text readsBack targets.member targets.payload⟩
  rw [IdempotentEventBinding.expectedEventId,targets.eventKey,principal]

/-- The invariant: every turn-state event, and every event a worker may still append, stands for a row that
has been at the head of its queue. -/
structure Traced (host : Host) (s : System) : Prop where
  sound : Sound host unlimited s.db
  events : ∀ e ∈ s.db.events, isTurnState e.eventType = true → Sourced host s.db e.eventId e.eventType e.payloadJson
  held : ∀ w outbox, (s.phase w).held = some outbox →
    Sourced host s.db (outbox.binding.expectedEventId host) outbox.binding.eventType (host.toText outbox.binding.payload)

theorem Traced.start (path instanceId : String) : Traced host (System.start path instanceId) where
  sound := .created path instanceId
  events := by simp [System.start,Database.created]
  held := fun w outbox held => by cases held

/-- A foreign call adds no turn-state event. -/
theorem Op.apply_events {op : Op} (sound : Sound host unlimited db) (foreign : op.Foreign) {e : EventRow}
    (member : e ∈ (op.apply host db).events) (turnState : Turn.isTurnState e.eventType = true) : e ∈ db.events := by
  unfold Op.apply at member
  split at member
  · rename_i db' done
    cases ledger : op.isLedger with
    | false =>
      have steps : QuietSteps host unlimited db db' := op.quiet_steps sound (op.within_unlimited db) ledger done
      have same : db'.events = db.events :=
        steps_keep (P := fun a => a.events = db.events) (fun before step => step.2.trans before) steps rfl
      exact same ▸ member
    | true =>
      cases op with
      | ledgerWrite write =>
        cases done
        rcases write_mem member with old | new
        · exact old
        · rw [foreign _ new] at turnState
          cases turnState
      | appendVerified createdAt keypair binding =>
        cases done
        rcases appendVerified_mem member with old | ⟨_, type, _⟩
        · exact old
        · rw [type,show Turn.isTurnState binding.eventType = false from foreign] at turnState
          cases turnState
      | _ => cases ledger
  · exact member

/-- The database moves on and every turn-state event in it is old or stands for a row that was at the head. -/
structure Advances (host : Host) (db db' : Database) : Prop where
  sound : Sound host unlimited db'
  later : Later db db'
  events : ∀ e ∈ db'.events, isTurnState e.eventType = true → e ∈ db.events ∨ Sourced host db e.eventId e.eventType e.payloadJson

theorem Op.apply_advances {op : Op} (sound : Sound host unlimited db) (foreign : op.Foreign) :
    Advances host db (op.apply host db) :=
  ⟨sound.apply (op.within_unlimited db), op.apply_later sound, fun _ member turnState =>
    .inl (op.apply_events sound foreign member turnState)⟩

theorem Acts.advances {phase : Phase} (acts : Acts host db phase db') (sound : Sound host unlimited db)
    (held : ∀ outbox, phase.held = some outbox → Sourced host db (outbox.binding.expectedEventId host) outbox.binding.eventType
      (host.toText outbox.binding.payload)) : Advances host db db' := by
  cases acts with
  | nothing => exact ⟨sound, .same rfl (.refl _), fun _ member _ => .inl member⟩
  | calls op foreign => exact op.apply_advances sound foreign
  | appends outbox createdAt keypair holds =>
    refine ⟨sound.apply (Op.within_unlimited db _), Op.apply_later sound, ?_⟩
    intro e member _
    rcases appendVerified_mem member with old | ⟨id, type, payload⟩
    · exact .inl old
    · rw [id,type,payload]
      exact .inr (held outbox holds)

theorem Traced.advance {s : System} {phase : Nat → Phase} (traced : Traced host s) (advances : Advances host s.db db')
    (held : ∀ w outbox, (phase w).held = some outbox → Sourced host db' (outbox.binding.expectedEventId host)
      outbox.binding.eventType (host.toText outbox.binding.payload)) : Traced host ⟨db', phase⟩ := by
  refine ⟨advances.sound, ?_, held⟩
  intro e member turnState
  rcases advances.events e member turnState with old | sourced
  · exact (traced.events e old turnState).later advances.later
  · exact sourced.later advances.later

theorem Traced.step {s : System} {action : Action} (readsBack : host.ReadsBack) (traced : Traced host s)
    (foreign : action.Foreign) : Traced host (s.step host action) := by
  cases action with
  | call op =>
    have advances : Advances host s.db (op.apply host s.db) := op.apply_advances traced.sound foreign
    exact traced.advance advances (fun w outbox holds => (traced.held w outbox holds).later advances.later)
  | worker w act =>
    have advances := ((s.phase w).act_acts act).advances traced.sound (traced.held w)
    have own : ∀ outbox, ((s.phase w).act host s.db act).2.held = some outbox → (s.phase w).held = some outbox ∨
        (((s.phase w).act host s.db act).1 = s.db ∧ Revalidated host s.db outbox) := fun _ => Phase.act_held
    simp only [System.step]
    generalize (s.phase w).act host s.db act = result at advances own ⊢
    refine traced.advance advances ?_
    intro v outbox holds
    by_cases same : v = w
    · rw [same,Function.update_self] at holds
      rcases own outbox holds with old | ⟨unchanged, revalidated⟩
      · exact (traced.held w outbox old).later advances.later
      · rw [unchanged]
        exact revalidated.sourced readsBack traced.sound
    · rw [Function.update_of_ne same] at holds
      exact (traced.held v outbox holds).later advances.later

theorem Traced.run {s : System} {actions : List Action} (readsBack : host.ReadsBack) (traced : Traced host s)
    (foreign : ∀ a ∈ actions, a.Foreign) : Traced host (s.run host actions) := by
  induction actions generalizing s with
  | nil => exact traced
  | cons action actions ih =>
    exact ih (traced.step readsBack (foreign action List.mem_cons_self)) (fun a inside => foreign a (List.mem_cons_of_mem _ inside))

/-- Where nothing that has a property follows one that does not, those that have it come first. -/
theorem exists_split_of_pairwise {α : Type} {p : α → Prop} {l : List α} (ordered : l.Pairwise (fun a b => p b → p a)) :
    ∃ front back, l = front ++ back ∧ (∀ a ∈ front, p a) ∧ ∀ a ∈ back, ¬ p a := by
  induction l with
  | nil => exact ⟨[], [], rfl, by simp, by simp⟩
  | cons a l ih =>
    obtain ⟨first, rest⟩ := List.pairwise_cons.mp ordered
    by_cases here : p a
    · obtain ⟨front, back, rfl, holds, fails⟩ := ih rest
      refine ⟨a :: front, back, rfl, ?_, fails⟩
      exact List.forall_mem_cons.mpr ⟨here, holds⟩
    · refine ⟨[], a :: l, rfl, by simp, ?_⟩
      exact List.forall_mem_cons.mpr ⟨here, fun b inside later => here (first b inside later)⟩

/-- The rows of a tenant, by `commit_ordinal`. -/
def tenantRows (db : Database) (tenantId : String) : List OutboxRow :=
  ((committed db).map Prod.snd).filter (·.tenantId = tenantId)

/-- A turn-state event of a row: it has the row's payload, or the id that belongs to the row. -/
def EventFor (host : Host) (db : Database) (o : OutboxRow) (e : EventRow) : Prop :=
  isTurnState e.eventType = true ∧ (e.payloadJson = o.payloadJson ∨ ∃ principalId,
    PrincipalOf db.turns o.toOutboxEntry principalId ∧ e.eventId = deterministicIdempotentEventId host principalId o.outboxId)

/-- What the ids of outbox rows and of their events are hashed from. -/
def hashedParts (turns : List TurnRow) (entries : List OutboxEntry) : List (List String) :=
  entries.map (fun o => [o.tenantId, o.turnId, toString o.revision, o.eventType]) ++
  entries.flatMap (fun o => (turns.filter (fun t => t.key = (o.tenantId, o.turnId))).map (fun t => [t.principalId, o.outboxId]))

/-- No two ids in use are the same truncated hash. -/
def CollisionFree (host : Host) (db : Database) : Prop :=
  ∀ a ∈ hashedParts db.turns db.entries, ∀ b ∈ hashedParts db.turns db.entries, host.shortHash a = host.shortHash b → a = b

structure ExactlyOnce (host : Host) (db : Database) : Prop where
  inOrder : ∀ tenantId, ∃ delivered rest, tenantRows db tenantId = delivered ++ rest ∧
    (∀ o ∈ delivered, o.status = .delivered) ∧ ∀ o ∈ rest, o.status ≠ .delivered
  once : ∀ o ∈ db.outbox, ∀ (i j : Nat) (e e' : EventRow), db.events[i]? = some e → db.events[j]? = some e' →
    EventFor host db o e → EventFor host db o e' → i = j
  named : ∀ o ∈ db.outbox, ∀ e ∈ db.events, EventFor host db o e → ∃ principalId,
    PrincipalOf db.turns o.toOutboxEntry principalId ∧ e.eventId = deterministicIdempotentEventId host principalId o.outboxId
  delivered : ∀ o ∈ db.outbox, o.status = .delivered → ∃ e ∈ db.events, EventFor host db o e ∧ o.ledgerEventId = some e.eventId
  ahead : ∀ o ∈ db.outbox, o.status ≠ .delivered → ∀ e ∈ db.events, EventFor host db o e →
    (tenantRows db o.tenantId).find? (·.status ≠ .delivered) = some o

section

variable (sound : Sound host limits db)
include sound

theorem Sound.tenantRows_eq (tenantId : String) : tenantRows db tenantId = db.outbox.filter (·.tenantId = tenantId) := by
  rw [tenantRows,sound.ordered.committed_snd]

/-- The delivered rows of a tenant come first. -/
theorem Sound.delivered_prefix (tenantId : String) : ∃ delivered rest, tenantRows db tenantId = delivered ++ rest ∧
    (∀ o ∈ delivered, o.status = .delivered) ∧ ∀ o ∈ rest, o.status ≠ .delivered := by
  have ordered : (tenantRows db tenantId).Pairwise (fun a b => b.status = .delivered → a.status = .delivered) := by
    rw [sound.tenantRows_eq]
    refine ((sound.ordered.increasing sound.delivery.inOrder).filter (·.tenantId = tenantId)).imp_of_mem ?_
    intro a b first second both
    have own : a.tenantId = tenantId := by simpa using (List.mem_filter.mp first).2
    have other : b.tenantId = tenantId := by simpa using (List.mem_filter.mp second).2
    exact both.2 (own.trans other.symm)
  exact exists_split_of_pairwise ordered

theorem Sound.hashed_outbox {o : OutboxRow} (member : o ∈ db.outbox) :
    [o.tenantId, o.turnId, toString o.revision, o.eventType] ∈ hashedParts db.turns db.entries ∧
      o.outboxId = deterministicOutboxId host o.tenantId o.turnId o.revision o.eventType :=
  ⟨List.mem_append_left _ (List.mem_map_of_mem (List.mem_map_of_mem member)), sound.outboxId member⟩

omit sound in
theorem PrincipalOf.hashed {o : OutboxRow} {principalId : String} (member : o ∈ db.outbox)
    (principal : PrincipalOf db.turns o.toOutboxEntry principalId) :
    [principalId, o.outboxId] ∈ hashedParts db.turns db.entries := by
  obtain ⟨t, known, key, rfl⟩ := principal
  refine List.mem_append_right _ (List.mem_flatMap.mpr ⟨o.toOutboxEntry, List.mem_map_of_mem member, ?_⟩)
  exact List.mem_map.mpr ⟨t, List.mem_filter.mpr ⟨known, by simpa using key⟩, rfl⟩

/-- Events of two rows have two ids. -/
theorem Sound.eventId_injective (free : CollisionFree host db) {o o' : OutboxRow} {principalId principalId' : String}
    (member : o ∈ db.outbox) (member' : o' ∈ db.outbox) (principal : PrincipalOf db.turns o.toOutboxEntry principalId)
    (principal' : PrincipalOf db.turns o'.toOutboxEntry principalId')
    (same : deterministicIdempotentEventId host principalId o.outboxId = deterministicIdempotentEventId host principalId' o'.outboxId) :
    o = o' := by
  have parts := free _ (principal.hashed member) _ (principal'.hashed member') (String.append_right_inj _ |>.mp same)
  simp only [List.cons.injEq,and_true] at parts
  obtain ⟨inside, id⟩ := sound.hashed_outbox member
  obtain ⟨inside', id'⟩ := sound.hashed_outbox member'
  have outboxId := parts.2
  rw [id,id'] at outboxId
  have columns := free _ inside _ inside' (String.append_right_inj _ |>.mp outboxId)
  simp only [List.cons.injEq,and_true] at columns
  exact sound.ordered.keyed.eq_of_key member member' (Prod.ext columns.1 parts.2)

end

/-- The event of a row was made from that row. -/
theorem Traced.source {s : System} (traced : Traced host s) (readsBack : host.ReadsBack) (free : CollisionFree host s.db)
    {o : OutboxRow} {e : EventRow} (member : o ∈ s.db.outbox) (inside : e ∈ s.db.events) (own : EventFor host s.db o e) :
    ∃ i principalId, s.db.outbox[i]? = some o ∧ Cleared s.db i o.tenantId ∧ PrincipalOf s.db.turns o.toOutboxEntry principalId ∧
      e.eventId = deterministicIdempotentEventId host principalId o.outboxId := by
  obtain ⟨turnState, own⟩ := own
  obtain ⟨i, o', principalId, here, cleared, principal, id, _, payload⟩ := traced.events e inside turnState
  have member' : o' ∈ s.db.outbox := List.mem_of_getElem? here
  have same : o' = o := by
    rcases own with text | ⟨principalId', principal', named⟩
    · exact traced.sound.payload_injective readsBack member' member (payload.symm.trans text)
    · exact traced.sound.eventId_injective free member' member principal principal' (id.symm.trans named)
  subst same
  exact ⟨i, principalId, here, cleared, principal, id⟩

theorem Traced.once {s : System} (traced : Traced host s) (readsBack : host.ReadsBack) (free : CollisionFree host s.db)
    {o : OutboxRow} (member : o ∈ s.db.outbox) {i j : Nat} {e e' : EventRow} (here : s.db.events[i]? = some e)
    (there : s.db.events[j]? = some e') (own : EventFor host s.db o e) (own' : EventFor host s.db o e') : i = j := by
  obtain ⟨_, _, _, _, ⟨t, known, key, rfl⟩, id⟩ := traced.source readsBack free member (List.mem_of_getElem? here) own
  obtain ⟨_, _, _, _, ⟨t', known', key', rfl⟩, id'⟩ := traced.source readsBack free member (List.mem_of_getElem? there) own'
  obtain rfl := traced.sound.exclusive.turnKeys.eq_of_key known known' (key.trans key'.symm)
  have inside : i < (s.db.events.map EventRow.eventId).length := by
    rw [List.length_map]
    exact (List.getElem?_eq_some_iff.mp here).1
  refine (List.getElem?_inj inside traced.sound.chained.distinct).mp ?_
  rw [List.getElem?_map,List.getElem?_map,here,there,Option.map_some,Option.map_some,id,id']

/-- A row that every earlier row of its tenant is delivered before is the first to be delivered. -/
theorem Cleared.first {i : Nat} {o : OutboxRow} (cleared : Cleared db i o.tenantId) (sound : Sound host limits db)
    (here : db.outbox[i]? = some o) (undelivered : o.status ≠ .delivered) :
    (tenantRows db o.tenantId).find? (·.status ≠ .delivered) = some o := by
  rw [sound.tenantRows_eq,List.find?_filter,List.find?_eq_some_iff_getElem]
  obtain ⟨inside, rfl⟩ := List.getElem?_eq_some_iff.mp here
  refine ⟨by simp [undelivered], i, inside, rfl, ?_⟩
  intro j before
  have earlier := cleared j _ before (List.getElem?_eq_getElem (before.trans inside))
  simpa [imp_iff_not_or] using earlier

theorem claimBy_parts (ordered : Ordered db) (tenantId leaseOwner : String) (now : DateTime) (leaseDuration : Int)
    (leaseToken : String) : (claimBy host db tenantId leaseOwner now leaseDuration leaseToken).1.turns = db.turns ∧
      (claimBy host db tenantId leaseOwner now leaseDuration leaseToken).1.entries = db.entries := by
  have kept : ∀ {db' : Database} {claimed : Option TurnOutboxRecord},
      claimNextOutbox host tenantId leaseOwner now leaseDuration leaseToken db = .ok (db', claimed) →
      db'.turns = db.turns ∧ db'.entries = db.entries := by
    intro db' claimed done
    rcases claimNextOutbox_ok ordered done with ⟨rfl, _⟩ | ⟨_, _, _, _, _, _, claims⟩
    · exact ⟨rfl, rfl⟩
    · rw [claims.result]
      exact ⟨rfl, setOutbox_entries (fun _ => rfl)⟩
  unfold claimBy
  split
  · rename_i done
    exact kept done
  · rename_i done
    exact kept done
  · exact ⟨rfl, rfl⟩

theorem hashedParts_single {t : TurnRow} {o : OutboxEntry} (key : t.key = (o.tenantId, o.turnId)) : hashedParts [t] [o] =
    [[o.tenantId, o.turnId, toString o.revision, o.eventType], [t.principalId, o.outboxId]] := by
  simp [hashedParts,key]

/-- Two lists whose digests begin with different digits do not collide. -/
theorem collisionFree_pair {a b : List String} (parts : hashedParts db.turns db.entries = [a, b])
    (apart : (host.sha256Hex (Host.framed a)).toList.head? ≠ (host.sha256Hex (Host.framed b)).toList.head?) :
    CollisionFree host db := by
  unfold CollisionFree
  rw [parts]
  exact shortHash_pair apart

/-- A request, and two workers that try to take it. -/
def twoClaims : List Action := (oneRequest false).map Action.call ++ [
  .worker 0 (.claim "tenant-a" "worker-0" sampleNow 30000 "lease-0"),
  .worker 1 (.claim "tenant-a" "worker-1" sampleNow 30000 "lease-1")]

theorem System.run_calls (s : System) (ops : List Op) :
    (s.run host (ops.map Action.call)).db = Turn.run host s.db ops := by
  induction ops generalizing s with
  | nil => rfl
  | cons op ops ih => exact ih (s.step host (.call op))

theorem System.run_append (s : System) (actions actions' : List Action) :
    s.run host (actions ++ actions') = (s.run host actions).run host actions' := List.foldl_append

/-- A claim writes no row. -/
theorem System.claim_parts (host : Host) {s : System} (ordered : Ordered s.db) (w : Nat) (tenantId leaseOwner : String) (now : DateTime)
    (leaseDuration : Int) (leaseToken : String) :
    (s.step host (.worker w (.claim tenantId leaseOwner now leaseDuration leaseToken))).db.turns = s.db.turns ∧
      (s.step host (.worker w (.claim tenantId leaseOwner now leaseDuration leaseToken))).db.entries = s.db.entries := by
  simp only [System.step]
  cases s.phase w with
  | idle => exact claimBy_parts ordered tenantId leaseOwner now leaseDuration leaseToken
  | _ => exact ⟨rfl, rfl⟩

theorem twoClaims_parts :
    hashedParts ((System.start "/var/lib/zaion/ledger.db" "instance-1").run sha256Host twoClaims).db.turns
      ((System.start "/var/lib/zaion/ledger.db" "instance-1").run sha256Host twoClaims).db.entries =
    hashedParts [requested false] [(requested false).entry sha256Host none none sampleNow] := by
  have requests : ((System.start "/var/lib/zaion/ledger.db" "instance-1").run sha256Host
      ((oneRequest false).map Action.call)).db = oneTurn false := System.run_calls _ _
  have traced : Traced sha256Host ((System.start "/var/lib/zaion/ledger.db" "instance-1").run sha256Host
      ((oneRequest false).map Action.call)) :=
    (Traced.start _ _).run sha256Host_readsBack (by simp [oneRequest,Action.Foreign,Op.Foreign])
  obtain ⟨written, queued⟩ := oneTurn_rows false
  have single : (oneTurn false).entries = [(requested false).entry sha256Host none none sampleNow] := by
    rw [Database.entries,queued]
    rfl
  rw [twoClaims,System.run_append]
  generalize (System.start _ _).run sha256Host ((oneRequest false).map Action.call) = s at requests traced ⊢
  have once : Traced sha256Host (s.step sha256Host (.worker 0 (.claim "tenant-a" "worker-0" sampleNow 30000 "lease-0"))) :=
    traced.step sha256Host_readsBack trivial
  obtain ⟨turns, entries⟩ := System.claim_parts sha256Host traced.sound.ordered 0 "tenant-a" "worker-0" sampleNow 30000 "lease-0"
  obtain ⟨turns', entries'⟩ := System.claim_parts sha256Host once.sound.ordered 1 "tenant-a" "worker-1" sampleNow 30000 "lease-1"
  rw [requests,written] at turns
  rw [requests,single] at entries
  exact congrArg₂ hashedParts (turns'.trans turns) (entries'.trans entries)

end Zaion.Turn
