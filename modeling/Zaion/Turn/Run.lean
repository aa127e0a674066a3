import Zaion.Turn.Lease
import Zaion.Turn.Reopen

/-! Runs of the store: calls of any callers, in the order their transactions commit. -/
namespace Zaion.Turn

open Lib Ledger

inductive Op where
  | reopen (orderAt quarantineAt verifiedAt : DateTime)
  | beginTurn (ingress : AuthenticatedIngress) (admission : DurableTurnAdmission) (now : DateTime)
  | approveTurn (tenantId turnId : String) (now : DateTime)
  | compareAndTransition (tenantId turnId leaseOwner : String) (expectedState : TurnState)
      (expectedRevision : Nat) (next : TurnState) (now : DateTime)
  | compareAndTransitionWithResult (tenantId turnId leaseOwner : String) (expectedState : TurnState)
      (expectedRevision : Nat) (next : TurnState) (terminalResult : TurnExecution) (now : DateTime)
  | recoverExpiredActorLeases (tenantId : String) (now : DateTime) (limit : Nat)
  | claimNextOutbox (tenantId leaseOwner : String) (now : DateTime) (leaseDuration : Int) (leaseToken : String)
  | renewOutboxLease (tenantId outboxId leaseOwner leaseToken : String) (now : DateTime) (leaseDuration : Int)
  | releaseOutbox (tenantId outboxId leaseOwner leaseToken : String) (now availableAt : DateTime) (error : String)
  | completeOutbox (tenantId outboxId leaseOwner leaseToken : String) (commit : VerifiedEventCommit)
      (now : DateTime) (ledgerPath ledgerInstanceId : String)
  | quarantineOutbox (claim : TurnOutboxRecord) (failure : OutboxDispatchFailure) (exhausted : Bool)
      (now : DateTime)
  | ledgerWrite (write : Write)
  | appendVerified (createdAt : String) (keypair : Keypair) (binding : IdempotentEventBinding)

/-- The database a call leaves when it succeeds. -/
def Op.exec (host : Host) (db : Database) : Op → Except TurnStoreError Database
  | .reopen orderAt quarantineAt verifiedAt => openStore host orderAt quarantineAt verifiedAt db
  | .beginTurn ingress admission now => Prod.fst <$> Turn.beginTurn host ingress admission now db
  | .approveTurn tenantId turnId now => Prod.fst <$> Turn.approveTurn host tenantId turnId now db
  | .compareAndTransition tenantId turnId leaseOwner expectedState expectedRevision next now =>
    Prod.fst <$> compareAndTransitionTurn host tenantId turnId leaseOwner expectedState expectedRevision next
      now db
  | .compareAndTransitionWithResult tenantId turnId leaseOwner expectedState expectedRevision next
      terminalResult now =>
    Prod.fst <$> Turn.compareAndTransitionWithResult host tenantId turnId leaseOwner expectedState
      expectedRevision next terminalResult now db
  | .recoverExpiredActorLeases tenantId now limit =>
    Prod.fst <$> Turn.recoverExpiredActorLeases host tenantId now limit db
  | .claimNextOutbox tenantId leaseOwner now leaseDuration leaseToken =>
    Prod.fst <$> Turn.claimNextOutbox host tenantId leaseOwner now leaseDuration leaseToken db
  | .renewOutboxLease tenantId outboxId leaseOwner leaseToken now leaseDuration =>
    Prod.fst <$> Turn.renewOutboxLease host tenantId outboxId leaseOwner leaseToken now leaseDuration db
  | .releaseOutbox tenantId outboxId leaseOwner leaseToken now availableAt error =>
    Turn.releaseOutbox host tenantId outboxId leaseOwner leaseToken now availableAt error db
  | .completeOutbox tenantId outboxId leaseOwner leaseToken commit now ledgerPath ledgerInstanceId =>
    Prod.fst <$> Turn.completeOutbox host tenantId outboxId leaseOwner leaseToken commit now ledgerPath
      ledgerInstanceId db
  | .quarantineOutbox claim failure exhausted now =>
    Prod.fst <$> Turn.quarantineOutbox host claim failure exhausted now db
  | .ledgerWrite write => .ok { db with events := write.apply host db.events }
  | .appendVerified createdAt keypair binding =>
    .ok { db with events := (appendVerifiedIdempotentEvent host db.ledger createdAt keypair binding).1 }

/-- A call that fails rolls back. -/
def Op.apply (host : Host) (db : Database) (op : Op) : Database :=
  match op.exec host db with
  | .ok db' => db'
  | .error _ => db

def run (host : Host) (db : Database) (ops : List Op) : Database := ops.foldl (Op.apply host) db

@[simp] theorem run_nil (host : Host) (db : Database) : run host db [] = db := rfl

@[simp] theorem run_cons (host : Host) (db : Database) (op : Op) (ops : List Op) :
    run host db (op :: ops) = run host (op.apply host db) ops := rfl

theorem run_append (host : Host) (db : Database) (first second : List Op) :
    run host db (first ++ second) = run host (run host db first) second := List.foldl_append

/-- A call whose clock, and whose admission if it makes one, keep to the limits. -/
def Op.Within (limits : Limits) (db : Database) : Op → Prop
  | .beginTurn ingress admission now => limits.clock now ∧
      ((∀ t ∈ db.turns, t.admission ≠ (ingress.tenantId, ingress.idempotencyKey)) →
        limits.genesis (if admission.approvalRequired then .waitingApproval else .accepted))
  | .approveTurn _ _ now | .compareAndTransition _ _ _ _ _ _ now
  | .compareAndTransitionWithResult _ _ _ _ _ _ _ now | .recoverExpiredActorLeases _ now _ =>
    limits.clock now
  | _ => True

/-- Each call of a run keeps to the limits where it is made. -/
def RunWithin (host : Host) (limits : Limits) : Database → List Op → Prop
  | _, [] => True
  | db, op :: ops => op.Within limits db ∧ RunWithin host limits (op.apply host db) ops

def unlimited : Limits := ⟨fun _ => True, fun _ => True⟩

theorem Op.within_unlimited (db : Database) (op : Op) : op.Within unlimited db := by
  cases op <;> simp [Op.Within,unlimited]

theorem runWithin_unlimited (host : Host) (db : Database) (ops : List Op) : RunWithin host unlimited db ops := by
  induction ops generalizing db with
  | nil => trivial
  | cons op ops ih => exact ⟨op.within_unlimited db, ih _⟩

variable {host : Host} {limits : Limits} {db db' : Database}

theorem completes_steps {tenantId outboxId owner token : String} {now : DateTime} {row : OutboxRow}
    {completion : OutboxCompletion} (member : row ∈ db.outbox)
    (completes : Completes host db tenantId outboxId owner token now row db' completion) :
    QuietSteps host limits db db' := by
  cases completes with
  | already => exact .refl
  | repaired v delivered key fresh => exact .single ⟨.repair row v member delivered key fresh, rfl⟩
  | delivered i v holds fresh verified readable =>
    exact .single ⟨.deliver i row v owner token now holds.head holds.held fresh verified readable, rfl⟩

/-- The call writes to the ledger and not to the store. -/
def Op.isLedger : Op → Bool
  | .ledgerWrite _ | .appendVerified _ _ _ => true
  | _ => false

/-- Every call of the store that succeeds is a chain of steps that leave the ledger alone. -/
theorem Op.quiet_steps {op : Op} (sound : Sound host limits db) (within : op.Within limits db)
    (store : op.isLedger = false) (done : op.exec host db = .ok db') : QuietSteps host limits db db' := by
  have ordered := sound.ordered
  cases op with
  | reopen orderAt quarantineAt verifiedAt =>
    obtain ⟨_, _, opens, steps⟩ := sound.openStore_ok orderAt quarantineAt verifiedAt
    obtain rfl := Except.ok.inj (opens.symm.trans done)
    exact steps
  | beginTurn ingress admission now =>
    obtain ⟨result, ok, rfl⟩ := map_ok_iff.mp done
    exact (beginTurn_steps sound.exclusive.turnKeys within.1 within.2 ok).quiet
  | approveTurn tenantId turnId now =>
    obtain ⟨result, ok, rfl⟩ := map_ok_iff.mp done
    exact TurnSteps.quiet (.single (approveTurn_step within ok))
  | compareAndTransition =>
    obtain ⟨result, ok, rfl⟩ := map_ok_iff.mp done
    exact TurnSteps.quiet (.single (compareAndTransitionTurn_step within ok))
  | compareAndTransitionWithResult =>
    obtain ⟨result, ok, rfl⟩ := map_ok_iff.mp done
    exact TurnSteps.quiet (.single (compareAndTransitionWithResult_step within ok))
  | recoverExpiredActorLeases tenantId now limit =>
    obtain ⟨result, ok, rfl⟩ := map_ok_iff.mp done
    exact (recoverActors_steps within ok).quiet
  | claimNextOutbox tenantId owner now duration token =>
    obtain ⟨result, ok, rfl⟩ := map_ok_iff.mp done
    rcases claimNextOutbox_ok ordered ok with ⟨same, _⟩ | ⟨_, i, row, untilMs, _, _, claims⟩
    · rw [same]
    · have readable := claims.readable
      rw [claims.result] at readable ⊢
      exact .single ⟨.claim i row owner token untilMs now claims.head claims.free claims.available
        claims.claimable readable, rfl⟩
  | renewOutboxLease tenantId outboxId owner token now duration =>
    obtain ⟨result, ok, rfl⟩ := map_ok_iff.mp done
    obtain ⟨i, row, untilMs, holds, free, same, readable, _⟩ := renewOutboxLease_ok ordered ok
    rw [same] at readable ⊢
    exact .single ⟨.renew i row owner token untilMs now holds.head free holds.held readable, rfl⟩
  | releaseOutbox tenantId outboxId owner token now availableAt error =>
    obtain ⟨i, row, holds, same, readable, _⟩ := releaseOutbox_ok ordered done
    rw [same] at readable ⊢
    exact .single ⟨.release i row owner token now availableAt error holds.head holds.held readable, rfl⟩
  | completeOutbox tenantId outboxId owner token commit now ledgerPath ledgerInstanceId =>
    obtain ⟨result, ok, rfl⟩ := map_ok_iff.mp done
    obtain ⟨row, member, _, completes⟩ := completeOutbox_ok ordered ok
    exact completes_steps member completes
  | quarantineOutbox claim failure exhausted now =>
    obtain ⟨result, ok, rfl⟩ := map_ok_iff.mp done
    obtain ⟨i, row, q, owner, token, _, _, holds, quarantines, same, readable⟩ := quarantineOutbox_ok ordered ok
    rw [same] at readable ⊢
    exact .single ⟨.quarantine i row q owner token now failure.message holds.head holds.held quarantines
      readable, rfl⟩
  | ledgerWrite | appendVerified => cases store

/-- Every call that succeeds is a chain of steps. -/
theorem Op.steps {op : Op} (sound : Sound host limits db) (within : op.Within limits db)
    (done : op.exec host db = .ok db') : Steps host limits db db' := by
  cases ledger : op.isLedger with
  | false => exact Relation.ReflTransGen.mono (fun _ _ => And.left) _ _ (op.quiet_steps sound within ledger done)
  | true =>
    cases op with
    | ledgerWrite write =>
      cases done
      exact .single (.ledger _ (apply_appends host db.events write))
    | appendVerified createdAt keypair binding =>
      cases done
      exact .single (.ledger _ (appendVerified_appends host db.ledger createdAt keypair binding))
    | _ => cases ledger

theorem Op.apply_steps {op : Op} (sound : Sound host limits db) (within : op.Within limits db) :
    Steps host limits db (op.apply host db) := by
  unfold Op.apply
  split
  · rename_i done
    exact Op.steps sound within done
  · exact .refl

theorem Sound.apply {op : Op} (sound : Sound host limits db) (within : op.Within limits db) :
    Sound host limits (op.apply host db) := sound.steps (Op.apply_steps sound within)

theorem Sound.run {ops : List Op} (sound : Sound host limits db) (within : RunWithin host limits db ops) :
    Sound host limits (run host db ops) := by
  induction ops generalizing db with
  | nil => exact sound
  | cons op ops ih => exact ih (sound.apply within.1) within.2

/-- What every step keeps, a run keeps. -/
theorem Sound.run_keeps {P : Database → Prop} {ops : List Op} (sound : Sound host limits db)
    (within : RunWithin host limits db ops) (keeps : ∀ {a b}, P a → Step host limits a b → P b) (start : P db) :
    P (Turn.run host db ops) := by
  induction ops generalizing db with
  | nil => exact start
  | cons op ops ih =>
    exact ih (sound.apply within.1) within.2 (steps_keep keeps (Op.apply_steps sound within.1) start)

/-- Every state that calls reach from a new file is sound. -/
theorem run_sound (host : Host) (path instanceId : String) (ops : List Op) :
    Sound host unlimited (run host (Database.created path instanceId) ops) :=
  (Sound.created path instanceId).run (runWithin_unlimited host _ ops)

/-- The tables as `open` wants them. -/
structure Intact (host : Host) (db : Database) : Prop where
  mapping : db.commitOrder.map OrderRow.key = db.outbox.map outboxKey ∧ (db.outbox.map outboxKey).Nodup ∧
    (db.commitOrder.map OrderRow.commitOrdinal).Nodup
  sequence : db.sequence = (db.commitOrder.map OrderRow.commitOrdinal).max?
  revisions : ∀ t ∈ db.turns, (turnCommits db t.tenantId t.turnId).map (fun row => row.2.revision) =
    List.range (t.revision + 1) ∧ ordinalsIncrease (turnCommits db t.tenantId t.turnId) = true
  inOrder : ∀ tenantId, deliveredHole db tenantId = false
  evidence : ∀ o ∈ db.outbox, o.status = .delivered ↔
    ∃ v ∈ db.verifiedCommits, v.key = outboxKey o ∧ o.ledgerEventId = some v.ledgerEventId
  ofRow : ∀ v ∈ db.verifiedCommits, ∃ o ∈ db.outbox, outboxKey o = v.key
  quarantines : quarantineRowsMatch db
  markers : ∀ m ∈ db.migrations, orderGuardPrefixEvidence host db (some m.sourceMaxRowid) =
    (m.sourceRowCount, m.sourceMaxRowid, m.sourceDigest)

section

variable (sound : Sound host limits db)
include sound

theorem Sound.evidence_iff {o : OutboxRow} (member : o ∈ db.outbox) : o.status = .delivered ↔
    ∃ v ∈ db.verifiedCommits, v.key = outboxKey o ∧ o.ledgerEventId = some v.ledgerEventId := by
  constructor
  · intro delivered
    obtain ⟨v, inside, key⟩ := (sound.delivery.delivered o member delivered).evidence
    obtain ⟨other, here, of⟩ := sound.delivery.evidence v inside
    obtain rfl := sound.ordered.keyed.eq_of_key here member (of.key.trans key)
    exact ⟨v, inside, key, of.event⟩
  · rintro ⟨v, inside, key, _⟩
    obtain ⟨other, here, of⟩ := sound.delivery.evidence v inside
    obtain rfl := sound.ordered.keyed.eq_of_key here member (of.key.trans key)
    exact of.delivered

theorem Sound.markers {m : MigrationRow} (member : m ∈ db.migrations) :
    orderGuardPrefixEvidence host db (some m.sourceMaxRowid) =
      (m.sourceRowCount, m.sourceMaxRowid, m.sourceDigest) := by
  rcases sound.schema with ⟨_, none, _⟩ | installed
  · rw [none] at member
    cases member
  · obtain ⟨_, a, b, c, d, migrations⟩ := installed
    rw [migrations] at member
    simp only [List.mem_cons,List.not_mem_nil,or_false] at member
    rcases member with rfl | rfl | rfl | rfl <;> exact sound.prefix_empty

theorem Sound.intact : Intact host db where
  mapping := by
    refine ⟨?_, sound.ordered.keyed, ?_⟩
    · rw [sound.ordered.order]
      exact places_keys db.outbox
    · rw [sound.ordered.order,places_ordinals]
      exact List.nodup_range'
  sequence := sound.ordered.sequence
  revisions := by
    intro t member
    refine ⟨?_, sound.turnCommits_increase member⟩
    rw [sound.turnCommits_revisions member,List.range_eq_range']
  inOrder := fun tenantId => sound.ordered.deliveredHole_false sound.delivery.inOrder tenantId
  evidence := fun o member => sound.evidence_iff member
  ofRow := fun v member => by
    obtain ⟨o, inside, of⟩ := sound.delivery.evidence v member
    exact ⟨o, inside, of.key⟩
  quarantines := sound.quarantineRowsMatch
  markers := fun m member => sound.markers member

end

/-- Reopening never rejects what the store's own calls produced. -/
theorem open_accepts_every_run (host : Host) (path instanceId : String) (ops : List Op)
    (orderAt quarantineAt verifiedAt : DateTime) :
    Intact host (run host (Database.created path instanceId) ops) ∧
      ∃ db', openStore host orderAt quarantineAt verifiedAt (run host (Database.created path instanceId) ops) =
        .ok db' := by
  have sound := run_sound host path instanceId ops
  obtain ⟨_, _, opens, _⟩ := sound.openStore_ok orderAt quarantineAt verifiedAt
  exact ⟨sound.intact, _, opens⟩

end Zaion.Turn
