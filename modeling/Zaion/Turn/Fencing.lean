import Zaion.Sample
import Zaion.Turn.Run

/-! Lease fencing: a token is worth something only while the row carries it, and a row
never gets an old token back. -/
namespace Zaion.Turn

open Lib Ledger

/-- The outbox row under a key. -/
def Database.row (db : Database) (key : String × String) : Option OutboxRow :=
  Table.select outboxKey key db.outbox

namespace Op

/-- The token a claim draws. -/
def claimToken : Op → Option String
  | .claimNextOutbox _ _ _ _ leaseToken => some leaseToken
  | _ => none

/-- The row a holder's call is about and the token it presents. -/
def presents : Op → Option ((String × String) × String)
  | .renewOutboxLease tenantId outboxId _ leaseToken _ _ => some ((tenantId, outboxId), leaseToken)
  | .releaseOutbox tenantId outboxId _ leaseToken _ _ _ => some ((tenantId, outboxId), leaseToken)
  | .completeOutbox tenantId outboxId _ leaseToken _ _ _ _ => some ((tenantId, outboxId), leaseToken)
  | .quarantineOutbox claim _ _ _ => claim.leaseToken.map (fun token => ((claim.tenantId, claim.outboxId), token))
  | _ => none

/-- The call is a claim and leases the row under the key. -/
def claims (host : Host) (db : Database) (key : String × String) : Op → Prop
  | .claimNextOutbox tenantId leaseOwner now leaseDuration leaseToken => ∃ db' record,
      Turn.claimNextOutbox host tenantId leaseOwner now leaseDuration leaseToken db = .ok (db', some record) ∧
        record.key = key
  | _ => False

def renews (host : Host) (db : Database) (key : String × String) : Op → Prop
  | .renewOutboxLease tenantId outboxId leaseOwner leaseToken now leaseDuration => (tenantId, outboxId) = key ∧
      ∃ result, Turn.renewOutboxLease host tenantId outboxId leaseOwner leaseToken now leaseDuration db = .ok result
  | _ => False

def releases (host : Host) (db : Database) (key : String × String) : Op → Prop
  | .releaseOutbox tenantId outboxId leaseOwner leaseToken now availableAt error => (tenantId, outboxId) = key ∧
      ∃ db', Turn.releaseOutbox host tenantId outboxId leaseOwner leaseToken now availableAt error db = .ok db'
  | _ => False

def quarantines (host : Host) (db : Database) (key : String × String) : Op → Prop
  | .quarantineOutbox claim failure exhausted now => claim.key = key ∧
      ∃ result, Turn.quarantineOutbox host claim failure exhausted now db = .ok result
  | _ => False

def delivers (host : Host) (db : Database) (key : String × String) : Op → Prop
  | .completeOutbox tenantId outboxId leaseOwner leaseToken commit now ledgerPath ledgerInstanceId =>
    (tenantId, outboxId) = key ∧ ∃ db', Turn.completeOutbox host tenantId outboxId leaseOwner leaseToken commit
      now ledgerPath ledgerInstanceId db = .ok (db', .delivered)
  | _ => False

/-- The call takes the lease on the row from whoever held it. -/
def takesLease (host : Host) (db : Database) (key : String × String) (op : Op) : Prop :=
  op.claims host db key ∨ op.releases host db key ∨ op.quarantines host db key ∨ op.delivers host db key

/-- The call fails, or is a completion that finds the row delivered. -/
def refused (host : Host) (db : Database) (op : Op) : Prop :=
  (∃ error, op.exec host db = .error error) ∨
    ∃ tenantId outboxId leaseOwner leaseToken commit now ledgerPath ledgerInstanceId db',
      op = .completeOutbox tenantId outboxId leaseOwner leaseToken commit now ledgerPath ledgerInstanceId ∧
      Turn.completeOutbox host tenantId outboxId leaseOwner leaseToken commit now ledgerPath ledgerInstanceId db =
        .ok (db', .alreadyDelivered)

end Op

/-- Tokens drawn by the claims of a run. -/
def claimTokens (ops : List Op) : List String := ops.filterMap Op.claimToken

variable {host : Host} {limits : Limits} {db db' : Database} {key : String × String} {row : OutboxRow}

/-- Rows are added behind the old ones, without a lease. -/
def Grows (db db' : Database) : Prop :=
  ∃ new, db'.outbox = db.outbox ++ new ∧ ∀ o ∈ new, o.leaseToken = none

theorem Grows.same (same : db'.outbox = db.outbox) : Grows db db' := ⟨[], by simp [same], by simp⟩

theorem TurnStep.grows (step : TurnStep host limits db db') : Grows db db' := by
  cases step with
  | admitRow | advance => exact ⟨_, rfl, by simp [OutboxEntry.pending]⟩
  | addActor | clear => exact .same rfl

theorem TurnSteps.grows (steps : TurnSteps host limits db db') : Grows db db' := by
  refine steps_keep ?_ steps (Grows.same rfl)
  rintro mid last ⟨new, rows, unleased⟩ step
  obtain ⟨more, rows', unleased'⟩ := step.grows
  refine ⟨new ++ more, by rw [rows',rows,List.append_assoc], ?_⟩
  intro o member
  rcases List.mem_append.mp member with old | young
  · exact unleased o old
  · exact unleased' o young

theorem Grows.finds (grows : Grows db db') (found : db.row key = some row) : db'.row key = some row := by
  obtain ⟨new, rows, _⟩ := grows
  have found : db.outbox.find? (fun r => decide (outboxKey r = key)) = some row := found
  unfold Database.row Table.select
  rw [rows,List.find?_append,found]
  rfl

theorem OutboxRow.heldBy_token {owner token : String} {nowMs : Int} (held : row.heldBy owner token nowMs = true) :
    row.leaseToken = some token := by
  simp only [OutboxRow.heldBy,Bool.and_eq_true,decide_eq_true_eq] at held
  exact held.1.2

/-- A row before and after an update of the row under some key. -/
theorem row_modified {k : String × String} {f : OutboxRow → OutboxRow} (found : db.row key = some row)
    (rows : db'.outbox = Table.modify outboxKey k f db.outbox)
    (kept : ∀ o, (f o).toOutboxEntry = o.toOutboxEntry) :
    db'.row key = some (if k = key then f row else row) := by
  unfold Database.row at *
  rw [rows]
  by_cases same : k = key
  · rw [if_pos same,same,Table.select_modify_self (fun o own => by rw [outboxKey,kept]; exact own),found]
    rfl
  · rw [if_neg same,Table.select_modify_other (fun o _ own => by rw [outboxKey,kept]; exact own) (Ne.symm same)]
    exact found

theorem Ordered.row_eq (ordered : Ordered db) (found : db.row key = some row) {other : OutboxRow}
    (member : other ∈ db.outbox) (own : other.key = key) : other = row :=
  ordered.keyed.eq_of_key member (Table.mem_of_select found) (own.trans (Table.key_of_select found).symm)

/-- What one call does to the outbox. -/
inductive Effect (host : Host) (db : Database) (op : Op) : Database → Prop
  | grows {db' : Database} (grows : Grows db db') (unclaimed : ∀ key, ¬ op.claims host db key) :
      Effect host db op db'
  | claims {db' : Database} {tenantId owner token : String} {now : DateTime} {duration : Int} {i : Nat}
      {top : OutboxRow} {untilMs : Int} (claims : Claims host db tenantId owner token now i top untilMs db')
      (claimed : ∀ key, op.claims host db key ↔ top.key = key)
      (call : op = .claimNextOutbox tenantId owner now duration token) : Effect host db op db'
  | holds {db' : Database} {tenantId outboxId owner token : String} {now : DateTime} {i : Nat} {top : OutboxRow}
      {f : OutboxRow → OutboxRow} (holds : Holds db tenantId outboxId owner token now i top)
      (rows : db'.outbox = Table.modify outboxKey top.key f db.outbox)
      (kept : ∀ o, (f o).toOutboxEntry = o.toOutboxEntry) (attempts : ∀ o, (f o).attempts = o.attempts)
      (lease : ∀ o, (f o).leaseToken = o.leaseToken ∨ (f o).leaseToken = none)
      (unclaimed : ∀ key, ¬ op.claims host db key) : Effect host db op db'

theorem Op.effect {op : Op} (sound : Sound host unlimited db) (done : op.exec host db = .ok db') :
    Effect host db op db' := by
  have ordered := sound.ordered
  cases op with
  | reopen orderAt quarantineAt verifiedAt =>
    obtain ⟨_, _, opens, _⟩ := sound.openStore_ok orderAt quarantineAt verifiedAt
    obtain rfl := Except.ok.inj (opens.symm.trans done)
    exact .grows (.same rfl) (fun _ claims => claims)
  | beginTurn ingress admission now =>
    obtain ⟨result, ok, rfl⟩ := map_ok_iff.mp done
    have steps : TurnSteps host unlimited db result.1 :=
      beginTurn_steps sound.exclusive.turnKeys trivial (fun _ => trivial) ok
    exact .grows steps.grows (fun _ claims => claims)
  | approveTurn tenantId turnId now =>
    obtain ⟨result, ok, rfl⟩ := map_ok_iff.mp done
    have step : TurnStep host unlimited db result.1 := approveTurn_step trivial ok
    exact .grows step.grows (fun _ claims => claims)
  | compareAndTransition =>
    obtain ⟨result, ok, rfl⟩ := map_ok_iff.mp done
    have step : TurnStep host unlimited db result.1 := compareAndTransitionTurn_step trivial ok
    exact .grows step.grows (fun _ claims => claims)
  | compareAndTransitionWithResult =>
    obtain ⟨result, ok, rfl⟩ := map_ok_iff.mp done
    have step : TurnStep host unlimited db result.1 := compareAndTransitionWithResult_step trivial ok
    exact .grows step.grows (fun _ claims => claims)
  | recoverExpiredActorLeases tenantId now limit =>
    obtain ⟨result, ok, rfl⟩ := map_ok_iff.mp done
    have steps : TurnSteps host unlimited db result.1 := recoverActors_steps trivial ok
    exact .grows steps.grows (fun _ claims => claims)
  | claimNextOutbox tenantId owner now duration token =>
    obtain ⟨⟨after, claimed⟩, ok, rfl⟩ := map_ok_iff.mp done
    rcases claimNextOutbox_ok ordered ok with ⟨rfl, rfl⟩ | ⟨record, i, top, untilMs, rfl, columns, claims⟩
    · refine .grows (.same rfl) ?_
      rintro key ⟨_, _, other, _⟩
      rw [ok] at other
      cases other
    · have own : record.key = top.key := by
        rw [columns]
        rfl
      refine .claims claims (fun key => ⟨?_, fun same => ⟨_, record, ok, own.trans same⟩⟩) rfl
      rintro ⟨_, _, other, at_⟩
      rw [ok] at other
      cases other
      exact own.symm.trans at_
  | renewOutboxLease tenantId outboxId owner token now duration =>
    obtain ⟨⟨after, renewed⟩, ok, rfl⟩ := map_ok_iff.mp done
    obtain ⟨i, top, untilMs, holds, _, rfl, _⟩ := renewOutboxLease_ok ordered ok
    exact .holds holds rfl (fun _ => rfl) (fun _ => rfl) (fun _ => Or.inl rfl) (fun _ claims => claims)
  | releaseOutbox tenantId outboxId owner token now availableAt error =>
    obtain ⟨i, top, holds, rfl, _⟩ := releaseOutbox_ok ordered done
    exact .holds holds rfl (fun _ => rfl) (fun _ => rfl) (fun _ => Or.inr rfl) (fun _ claims => claims)
  | completeOutbox tenantId outboxId owner token commit now ledgerPath ledgerInstanceId =>
    obtain ⟨⟨after, completion⟩, ok, rfl⟩ := map_ok_iff.mp done
    obtain ⟨top, member, _, completes⟩ := completeOutbox_ok ordered ok
    cases completes with
    | already | repaired => exact .grows (.same rfl) (fun _ claims => claims)
    | delivered i v holds =>
      exact .holds holds rfl (fun _ => rfl) (fun _ => rfl) (fun _ => Or.inr rfl) (fun _ claims => claims)
  | quarantineOutbox claim failure exhausted now =>
    obtain ⟨⟨after, written⟩, ok, rfl⟩ := map_ok_iff.mp done
    obtain ⟨i, top, q, owner, token, _, _, holds, _, rfl, _⟩ := quarantineOutbox_ok ordered ok
    exact .holds holds rfl (fun _ => rfl) (fun _ => rfl) (fun _ => Or.inr rfl) (fun _ claims => claims)
  | ledgerWrite write =>
    cases done
    exact .grows (.same rfl) (fun _ claims => claims)
  | appendVerified createdAt keypair binding =>
    cases done
    exact .grows (.same rfl) (fun _ claims => claims)

theorem Op.claims_ok {op : Op} (claims : op.claims host db key) : ∃ db', op.exec host db = .ok db' := by
  cases op with
  | claimNextOutbox tenantId owner now duration token =>
    obtain ⟨db', record, ok, _⟩ := claims
    exact ⟨db', by simp [Op.exec,ok]⟩
  | _ => cases claims

theorem Op.apply_effect (sound : Sound host unlimited db) (op : Op) : Effect host db op (op.apply host db) := by
  unfold Op.apply
  split
  · rename_i done
    exact Op.effect sound done
  · rename_i failed
    refine .grows (.same rfl) (fun key claims => ?_)
    obtain ⟨_, ok⟩ := Op.claims_ok claims
    rw [ok] at failed
    cases failed

/-- What one call does to one row. -/
inductive Touches (host : Host) (db : Database) (key : String × String) (row : OutboxRow) (op : Op) :
    OutboxRow → Prop
  | kept (unclaimed : ¬ op.claims host db key) : Touches host db key row op row
  | claimed {tenantId owner token : String} {untilMs duration : Int} {now : DateTime}
      (claims : op.claims host db key) (call : op = .claimNextOutbox tenantId owner now duration token)
      (claimable : row.claimable now.millis = true)
      (free : ∀ q ∈ db.quarantines, q.key ≠ key) :
      Touches host db key row op (row.claimed owner token untilMs now.millis)
  | held {row' : OutboxRow} (unclaimed : ¬ op.claims host db key) (leased : row.status = .leased)
      (attempts : row'.attempts = row.attempts)
      (lease : row'.leaseToken = row.leaseToken ∨ row'.leaseToken = none) : Touches host db key row op row'

theorem Effect.touches {op : Op} (effect : Effect host db op db') (ordered : Ordered db)
    (found : db.row key = some row) : ∃ row', db'.row key = some row' ∧ Touches host db key row op row' := by
  cases effect with
  | grows grows unclaimed => exact ⟨row, grows.finds found, .kept (unclaimed key)⟩
  | @claims tenantId owner token now duration i top untilMs claims claimed call =>
    have rows : db'.outbox = Table.modify outboxKey top.key (·.claimed owner token untilMs now.millis)
        db.outbox := by
      rw [claims.result]
      rfl
    refine ⟨_, row_modified found rows (fun _ => rfl), ?_⟩
    by_cases same : top.key = key
    · rw [if_pos same]
      obtain rfl := ordered.row_eq found claims.head.mem same
      exact .claimed ((claimed key).mpr same) call claims.claimable (same ▸ not_quarantined claims.free)
    · rw [if_neg same]
      exact .kept (fun other => same ((claimed key).mp other))
  | @holds tenantId outboxId owner token now i top f holds rows kept attempts lease unclaimed =>
    refine ⟨_, row_modified found rows kept, ?_⟩
    by_cases same : top.key = key
    · rw [if_pos same]
      obtain rfl := ordered.row_eq found holds.head.mem same
      exact .held (unclaimed key) (OutboxRow.heldBy_leased holds.held) (attempts _) (lease _)
    · rw [if_neg same]
      exact .kept (unclaimed key)

/-- Every leased row had its token before, or a claim has just drawn it. -/
theorem Effect.tokens {op : Op} (effect : Effect host db op db') {o : OutboxRow}
    (member : o ∈ db'.outbox) {token : String} (leased : o.leaseToken = some token) :
    (∃ r ∈ db.outbox, r.leaseToken = some token) ∨ op.claimToken = some token := by
  cases effect with
  | grows grows _ =>
    obtain ⟨new, rows, unleased⟩ := grows
    rcases List.mem_append.mp (rows ▸ member) with old | young
    · exact Or.inl ⟨o, old, leased⟩
    · rw [unleased o young] at leased
      cases leased
  | claims claims _ call =>
    rw [claims.result] at member
    rcases Table.mem_modify.mp member with ⟨r, _, _, rfl⟩ | ⟨old, _⟩
    · exact Or.inr (call ▸ leased)
    · exact Or.inl ⟨o, old, leased⟩
  | holds _ rows _ _ lease _ =>
    rw [rows] at member
    rcases Table.mem_modify.mp member with ⟨r, old, _, rfl⟩ | ⟨old, _⟩
    · rcases lease r with same | none
      · exact Or.inl ⟨r, old, same.symm.trans leased⟩
      · rw [none] at leased
        cases leased
    · exact Or.inl ⟨o, old, leased⟩

namespace Touches

variable {op : Op} {row' : OutboxRow} (touches : Touches host db key row op row')
include touches

theorem token {token : String} (leased : row'.leaseToken = some token) :
    row.leaseToken = some token ∨ op.claimToken = some token := by
  cases touches with
  | kept => exact Or.inl leased
  | claimed _ call => exact Or.inr (call ▸ leased)
  | held _ _ _ lease =>
    rcases lease with same | none
    · exact Or.inl (same.symm.trans leased)
    · rw [none] at leased
      cases leased

/-- A delivered row stays as it is. -/
theorem delivered (status : row.status = .delivered) : row' = row := by
  cases touches with
  | kept => rfl
  | claimed _ _ claimable =>
    simp [OutboxRow.claimable,status] at claimable
  | held _ leased =>
    rw [status] at leased
    cases leased

/-- A row that is set aside stays as it is. -/
theorem setAside {q : QuarantineRow} (status : row.status = .pending) (quarantined : q ∈ db.quarantines)
    (own : q.key = key) : row' = row := by
  cases touches with
  | kept => rfl
  | claimed _ _ _ free => exact absurd own (free q quarantined)
  | held _ leased =>
    rw [status] at leased
    cases leased

end Touches

theorem Op.touches (sound : Sound host unlimited db) (op : Op) (found : db.row key = some row) :
    ∃ row', (op.apply host db).row key = some row' ∧ Touches host db key row op row' :=
  (Op.apply_effect sound op).touches sound.ordered found

theorem Holds.token {tenantId outboxId owner token : String} {now : DateTime} {i : Nat} {top : OutboxRow}
    (holds : Holds db tenantId outboxId owner token now i top) (ordered : Ordered db)
    (found : db.row (tenantId, outboxId) = some row) : row.leaseToken = some token := by
  obtain rfl := ordered.row_eq found holds.head.mem holds.key
  exact OutboxRow.heldBy_token holds.held

theorem Op.refused_of_error {op : Op} {error : TurnStoreError} (found : db.row key = some row)
    (failed : op.exec host db = .error error) :
    op.refused host db ∧ (op.apply host db).row key = some row := by
  refine ⟨Or.inl ⟨error, failed⟩, ?_⟩
  unfold Op.apply
  rw [failed]
  exact found

/-- A call that presents a token the row does not carry is refused and changes nothing. -/
theorem Op.refused_of_stale {op : Op} {token : String} (sound : Sound host unlimited db)
    (found : db.row key = some row) (stale : row.leaseToken ≠ some token)
    (presents : op.presents = some (key, token)) :
    op.refused host db ∧ (op.apply host db).row key = some row := by
  have ordered := sound.ordered
  cases outcome : op.exec host db with
  | error error => exact Op.refused_of_error found outcome
  | ok after =>
    cases op with
    | renewOutboxLease tenantId outboxId owner drawn now duration =>
      cases presents
      obtain ⟨⟨_, _⟩, ok, rfl⟩ := map_ok_iff.mp outcome
      obtain ⟨_, _, _, holds, _⟩ := renewOutboxLease_ok ordered ok
      exact absurd (holds.token ordered found) stale
    | releaseOutbox tenantId outboxId owner drawn now availableAt error =>
      cases presents
      obtain ⟨_, _, holds, _⟩ := releaseOutbox_ok ordered outcome
      exact absurd (holds.token ordered found) stale
    | quarantineOutbox claim failure exhausted now =>
      obtain ⟨⟨_, _⟩, ok, rfl⟩ := map_ok_iff.mp outcome
      obtain ⟨_, _, _, owner, drawn, _, hasToken, holds, _⟩ := quarantineOutbox_ok ordered ok
      simp only [Op.presents,hasToken,Option.map_some,Option.some.injEq,Prod.mk.injEq] at presents
      obtain ⟨rfl, rfl⟩ := presents
      exact absurd (holds.token ordered found) stale
    | completeOutbox tenantId outboxId owner drawn commit now ledgerPath ledgerInstanceId =>
      cases presents
      obtain ⟨⟨after, completion⟩, ok, rfl⟩ := map_ok_iff.mp outcome
      obtain ⟨_, _, _, completes⟩ := completeOutbox_ok ordered ok
      have result : (Op.completeOutbox tenantId outboxId owner token commit now ledgerPath
          ledgerInstanceId).apply host db = after := by
        unfold Op.apply
        rw [outcome]
      rw [result]
      cases completes with
      | already | repaired =>
        exact ⟨Or.inr ⟨_, _, _, _, _, _, _, _, _, rfl, ok⟩, found⟩
      | delivered _ _ holds => exact absurd (holds.token ordered found) stale
    | _ => cases presents

/-- After an update that ends the lease of a row the row carries no token. -/
theorem Op.lease_ended {op : Op} {after : Database} {f : OutboxRow → OutboxRow} {top : OutboxRow}
    (found : db.row key = some row) (done : op.exec host db = .ok after)
    (rows : after.outbox = Table.modify outboxKey top.key f db.outbox) (own : top.key = key)
    (kept : ∀ o, (f o).toOutboxEntry = o.toOutboxEntry) (ended : ∀ o, (f o).leaseToken = none) :
    ∃ row', (op.apply host db).row key = some row' ∧
      ∀ token, row'.leaseToken = some token → op.claimToken = some token := by
  have result : op.apply host db = after := by
    unfold Op.apply
    rw [done]
  refine ⟨f row, ?_, fun token leased => ?_⟩
  · rw [result,row_modified found rows kept,if_pos own]
  · rw [ended] at leased
    cases leased

/-- After a call that takes the lease away the row carries no token but the one just drawn. -/
theorem Op.takesLease_token {op : Op} (sound : Sound host unlimited db) (found : db.row key = some row)
    (takes : op.takesLease host db key) :
    ∃ row', (op.apply host db).row key = some row' ∧
      ∀ token, row'.leaseToken = some token → op.claimToken = some token := by
  have ordered := sound.ordered
  rcases takes with claims | releases | quarantines | delivers
  · obtain ⟨row', after, touches⟩ := Op.touches sound op found
    refine ⟨row', after, fun token leased => ?_⟩
    cases touches with
    | claimed _ call => exact call ▸ leased
    | kept unclaimed | held unclaimed => exact absurd claims unclaimed
  · cases op with
    | releaseOutbox tenantId outboxId owner token now availableAt error =>
      obtain ⟨rfl, after, done⟩ := releases
      obtain ⟨_, top, holds, rfl, _⟩ := releaseOutbox_ok ordered done
      exact Op.lease_ended found done rfl holds.key (fun _ => rfl) (fun _ => rfl)
    | _ => cases releases
  · cases op with
    | quarantineOutbox claim failure exhausted now =>
      obtain ⟨own, ⟨after, written⟩, done⟩ := quarantines
      obtain ⟨_, top, _, _, _, _, _, holds, _, rfl, _⟩ := quarantineOutbox_ok ordered done
      have ok : (Op.quarantineOutbox claim failure exhausted now).exec host db = .ok _ :=
        map_ok_iff.mpr ⟨_, done, rfl⟩
      exact Op.lease_ended found ok rfl (holds.key.trans own) (fun _ => rfl) (fun _ => rfl)
    | _ => cases quarantines
  · cases op with
    | completeOutbox tenantId outboxId owner token commit now ledgerPath ledgerInstanceId =>
      obtain ⟨rfl, after, done⟩ := delivers
      obtain ⟨_, _, _, completes⟩ := completeOutbox_ok ordered done
      cases completes with
      | delivered _ _ holds =>
        have ok : (Op.completeOutbox tenantId outboxId owner token commit now ledgerPath
            ledgerInstanceId).exec host db = .ok _ := map_ok_iff.mpr ⟨_, done, rfl⟩
        exact Op.lease_ended found ok rfl holds.key (fun _ => rfl) (fun _ => rfl)
    | _ => cases delivers

/-- A property of a row that every call of a run keeps, the run keeps. -/
theorem run_row {P : Database → OutboxRow → Prop} {ops : List Op}
    (keeps : ∀ {db op row row'}, Sound host unlimited db → op ∈ ops → Touches host db key row op row' →
      P db row → P (op.apply host db) row')
    (sound : Sound host unlimited db) (found : db.row key = some row) (holds : P db row) :
    ∃ row', (run host db ops).row key = some row' ∧ P (run host db ops) row' := by
  induction ops generalizing db row with
  | nil => exact ⟨row, found, holds⟩
  | cons op ops ih =>
    obtain ⟨row', found', touches⟩ := Op.touches sound op found
    exact ih (fun sound member => keeps sound (List.mem_cons_of_mem _ member))
      (sound.apply (op.within_unlimited db)) found' (keeps sound List.mem_cons_self touches holds)

theorem mem_claimTokens {ops : List Op} {token : String} :
    token ∈ claimTokens ops ↔ ∃ op ∈ ops, op.claimToken = some token := List.mem_filterMap

theorem claimTokens_append (first second : List Op) :
    claimTokens (first ++ second) = claimTokens first ++ claimTokens second := List.filterMap_append

/-- A token that is gone and not drawn again stays gone. -/
theorem run_token_gone {ops : List Op} {token : String} (sound : Sound host unlimited db)
    (found : db.row key = some row) (gone : row.leaseToken ≠ some token) (unused : token ∉ claimTokens ops) :
    ∃ row', (run host db ops).row key = some row' ∧ row'.leaseToken ≠ some token := by
  refine run_row (P := fun _ row => row.leaseToken ≠ some token) ?_ sound found gone
  intro db op row row' _ member touches gone leased
  rcases touches.token leased with before | drawn
  · exact gone before
  · exact unused (mem_claimTokens.mpr ⟨op, member, drawn⟩)

theorem run_delivered (sound : Sound host unlimited db) (found : db.row key = some row)
    (status : row.status = .delivered) (ops : List Op) : (run host db ops).row key = some row := by
  obtain ⟨row', found', rfl⟩ : ∃ row', (run host db ops).row key = some row' ∧ row' = row :=
    run_row (P := fun _ row' => row' = row)
      (fun _ _ touches same => (touches.delivered (same ▸ status)).trans same) sound found rfl
  exact found'

/-- Quarantine rows stay. -/
theorem Step.quarantines (step : Step host limits db db') : db.quarantines ⊆ db'.quarantines := by
  cases step with
  | turn step => cases step <;> exact List.Subset.refl _
  | quarantine => exact List.subset_append_left _ _
  | claim | renew | release | deliver | repair | ledger | migrate => exact List.Subset.refl _

theorem Op.apply_quarantines {q : QuarantineRow} (sound : Sound host unlimited db) (op : Op)
    (member : q ∈ db.quarantines) : q ∈ (op.apply host db).quarantines :=
  steps_keep (P := fun db => q ∈ db.quarantines) (fun inside step => step.quarantines inside)
    (Op.apply_steps sound (op.within_unlimited db)) member

/-- A row that is set aside is pending. -/
theorem Sound.setAside_pending {q : QuarantineRow} (sound : Sound host unlimited db)
    (member : q ∈ db.quarantines) (own : q.key = key) (found : db.row key = some row) :
    row.status = .pending := by
  obtain ⟨i, o, position, aside⟩ := sound.delivery.setAside q member
  obtain rfl := sound.ordered.row_eq found (List.mem_of_getElem? position) (aside.key.symm.trans own)
  exact aside.pending

theorem run_setAside {q : QuarantineRow} (sound : Sound host unlimited db) (member : q ∈ db.quarantines)
    (own : q.key = key) (found : db.row key = some row) (ops : List Op) :
    (run host db ops).row key = some row ∧ q ∈ (run host db ops).quarantines := by
  have pending := sound.setAside_pending member own found
  obtain ⟨row', found', rfl, member'⟩ : ∃ row', (run host db ops).row key = some row' ∧
      row' = row ∧ q ∈ (run host db ops).quarantines := by
    apply run_row (P := fun db row' => row' = row ∧ q ∈ db.quarantines) _ sound found ⟨rfl, member⟩
    rintro db op row' row'' sound _ touches ⟨same, inside⟩
    exact ⟨(touches.setAside (same ▸ pending) inside own).trans same,
      Op.apply_quarantines sound op inside⟩
  exact ⟨found', member'⟩

/-- No call leases, renews or delivers a row that is set aside. -/
theorem Op.setAside_refused {q : QuarantineRow} {op : Op} (sound : Sound host unlimited db)
    (member : q ∈ db.quarantines) (own : q.key = key) (found : db.row key = some row) :
    ¬ op.claims host db key ∧ ¬ op.renews host db key ∧ ¬ op.delivers host db key := by
  have pending := sound.setAside_pending member own found
  have unheld : ∀ {tenantId outboxId owner token now i top},
      (tenantId, outboxId) = key → ¬ Holds db tenantId outboxId owner token now i top := by
    rintro tenantId outboxId owner token now i top rfl holds
    obtain rfl := sound.ordered.row_eq found holds.head.mem holds.key
    have leased := OutboxRow.heldBy_leased holds.held
    rw [pending] at leased
    cases leased
  refine ⟨fun claims => ?_, fun renews => ?_, fun delivers => ?_⟩
  · obtain ⟨row', _, touches⟩ := Op.touches sound op found
    cases touches with
    | claimed _ _ _ free => exact free q member own
    | kept unclaimed | held unclaimed => exact unclaimed claims
  · cases op with
    | renewOutboxLease tenantId outboxId owner token now duration =>
      obtain ⟨same, ⟨after, record⟩, done⟩ := renews
      obtain ⟨_, _, _, holds, _⟩ := renewOutboxLease_ok sound.ordered done
      exact unheld same holds
    | _ => cases renews
  · cases op with
    | completeOutbox tenantId outboxId owner token commit now ledgerPath ledgerInstanceId =>
      obtain ⟨same, after, done⟩ := delivers
      obtain ⟨_, _, _, completes⟩ := completeOutbox_ok sound.ordered done
      cases completes with
      | delivered _ _ holds => exact unheld same holds
    | _ => cases delivers

theorem Op.quarantines_row {op : Op} (sound : Sound host unlimited db) (quarantines : op.quarantines host db key) :
    ∃ row, db.row key = some row ∧ ∃ q ∈ (op.apply host db).quarantines, q.key = key := by
  cases op with
  | quarantineOutbox claim failure exhausted now =>
    obtain ⟨own, ⟨after, written⟩, done⟩ := quarantines
    obtain ⟨_, top, q, _, _, _, _, holds, recorded, rfl, _⟩ := quarantineOutbox_ok sound.ordered done
    have ok : (Op.quarantineOutbox claim failure exhausted now).exec host db = .ok _ :=
      map_ok_iff.mpr ⟨_, done, rfl⟩
    have key : top.key = key := holds.key.trans own
    refine ⟨top, key ▸ sound.ordered.keyed.select_mem holds.head.mem, q, ?_, recorded.key.trans key⟩
    unfold Op.apply
    rw [ok]
    exact List.mem_append_right _ List.mem_cons_self
  | _ => cases quarantines

/-- What the lease protocol promises of a run. -/
structure Fenced (host : Host) (start : Database) (ops : List Op) : Prop where
  stale : ∀ before middle taker after key token row, ops = before ++ middle ++ taker :: after →
    (run host start before).row key = some row → row.leaseToken = some token →
    taker.takesLease host (run host start (before ++ middle)) key →
    ∃ row', (run host start ops).row key = some row' ∧ ∀ call : Op, call.presents = some (key, token) →
      call.refused host (run host start ops) ∧ (call.apply host (run host start ops)).row key = some row'
  claimed : ∀ tenantId owner now duration token key,
    (Op.claimNextOutbox tenantId owner now duration token).claims host (run host start ops) key →
    ∃ row, (run host start ops).row key = some row ∧ (row.status = .pending ∨
      row.status = .leased ∧ ∃ ms, row.leaseUntilMs = some ms ∧ ms * 1000000 ≤ now.nanos)
  attempts : ∀ (op : Op) key row, (run host start ops).row key = some row →
    ∃ row', (op.apply host (run host start ops)).row key = some row' ∧
      (op.claims host (run host start ops) key → row'.attempts = row.attempts + 1) ∧
      (¬ op.claims host (run host start ops) key → row'.attempts = row.attempts)
  delivered : ∀ before after key row, ops = before ++ after → (run host start before).row key = some row →
    row.status = .delivered → (run host start ops).row key = some row
  quarantined : ∀ before (op : Op) after key, ops = before ++ op :: after →
    op.quarantines host (run host start before) key → ∀ call : Op,
      ¬ call.claims host (run host start ops) key ∧ ¬ call.renews host (run host start ops) key ∧
      ¬ call.delivers host (run host start ops) key

/-- Every lease on a row was drawn by a claim of the run. -/
theorem tokens_drawn {path instanceId : String} {ops : List Op} {o : OutboxRow} {token : String}
    (member : o ∈ (run host (Database.created path instanceId) ops).outbox)
    (leased : o.leaseToken = some token) : token ∈ claimTokens ops := by
  induction ops using List.reverseRecOn generalizing o with
  | nil => cases member
  | append_singleton ops op ih =>
    rw [run_append] at member
    rw [claimTokens_append,List.mem_append]
    rcases (Op.apply_effect (run_sound host path instanceId ops) op).tokens member leased with
      ⟨r, before, same⟩ | drawn
    · exact Or.inl (ih before same)
    · exact Or.inr (mem_claimTokens.mpr ⟨op, List.mem_cons_self, drawn⟩)

/-- A claim takes a row that nobody holds: comparing milliseconds in SQL and instants in
Rust gives the same answer. -/
theorem OutboxRow.claimable_cases {now : DateTime} (claimable : row.claimable now.millis = true) :
    row.status = .pending ∨
      row.status = .leased ∧ ∃ ms, row.leaseUntilMs = some ms ∧ ms * 1000000 ≤ now.nanos := by
  simp only [OutboxRow.claimable,Bool.or_eq_true,Bool.and_eq_true,decide_eq_true_eq] at claimable
  rcases claimable with pending | ⟨leased, expired⟩
  · exact Or.inl pending
  · cases lease : row.leaseUntilMs with
    | none => simp [lease] at expired
    | some ms =>
      have expired : ms ≤ now.millis := by simpa [lease] using expired
      unfold DateTime.millis at expired
      exact Or.inr ⟨leased, ms, rfl, by omega⟩

/-- Lease fencing, over every interleaving of the store's calls. -/
theorem outbox_lease_fencing (host : Host) (path instanceId : String) (ops : List Op)
    (fresh : (claimTokens ops).Nodup) : Fenced host (Database.created path instanceId) ops where
  stale := by
    rintro before middle taker after key token row rfl found leased takes
    have drawn : token ∈ claimTokens before := tokens_drawn (Table.mem_of_select found) leased
    have later : token ∉ claimTokens (middle ++ taker :: after) := by
      rw [List.append_assoc,claimTokens_append,List.nodup_append] at fresh
      exact fun again => fresh.2.2 token drawn token again rfl
    have atTaker : ∃ row, (run host (Database.created path instanceId) (before ++ middle)).row key =
        some row := by
      rw [run_append]
      exact (run_row (P := fun _ _ => True) (fun _ _ _ _ => trivial)
        (run_sound host path instanceId before) found trivial).imp fun _ reached => reached.1
    obtain ⟨_, found'⟩ := atTaker
    have sound := run_sound host path instanceId (before ++ middle)
    obtain ⟨row₁, found₁, only⟩ := Op.takesLease_token sound found' takes
    rw [claimTokens_append,List.mem_append,mem_claimTokens,mem_claimTokens] at later
    have gone : row₁.leaseToken ≠ some token :=
      fun again => later (Or.inr ⟨taker, List.mem_cons_self, only token again⟩)
    have unused : token ∉ claimTokens after := by
      intro again
      obtain ⟨op, member, drawn⟩ := mem_claimTokens.mp again
      exact later (Or.inr ⟨op, List.mem_cons_of_mem _ member, drawn⟩)
    obtain ⟨row₂, found₂, gone₂⟩ :=
      run_token_gone (sound.apply (taker.within_unlimited _)) found₁ gone unused
    have result : run host (Database.created path instanceId) (before ++ middle ++ taker :: after) =
        run host (taker.apply host (run host (Database.created path instanceId) (before ++ middle))) after := by
      rw [run_append,run_cons]
    refine ⟨row₂, by rw [result]; exact found₂, fun call presents => ?_⟩
    rw [result]
    apply Op.refused_of_stale _ found₂ gone₂ presents
    rw [← result]
    exact run_sound host path instanceId _
  claimed := by
    intro tenantId owner now duration token key claims
    obtain ⟨after, record, done, own⟩ := claims
    have sound := run_sound host path instanceId ops
    rcases claimNextOutbox_ok sound.ordered done with ⟨_, none⟩ | ⟨_, i, row, untilMs, some, columns, claims⟩
    · cases none
    · cases some
      have key : row.key = key := by
        rw [← own,columns]
        rfl
      exact ⟨row, key ▸ sound.ordered.keyed.select_mem claims.head.mem,
        OutboxRow.claimable_cases claims.claimable⟩
  attempts := by
    intro op key row found
    obtain ⟨row', found', touches⟩ := Op.touches (run_sound host path instanceId ops) op found
    refine ⟨row', found', ?_⟩
    cases touches with
    | kept unclaimed => exact ⟨fun claims => absurd claims unclaimed, fun _ => rfl⟩
    | claimed claims => exact ⟨fun _ => rfl, fun unclaimed => absurd claims unclaimed⟩
    | held unclaimed _ attempts => exact ⟨fun claims => absurd claims unclaimed, fun _ => attempts⟩
  delivered := by
    rintro before after key row rfl found status
    rw [run_append]
    exact run_delivered (run_sound host path instanceId before) found status after
  quarantined := by
    rintro before op after key rfl quarantines call
    have sound := run_sound host path instanceId before
    obtain ⟨row, found, q, member, own⟩ := Op.quarantines_row sound quarantines
    obtain ⟨row', found', _⟩ := Op.touches sound op found
    have sound' := sound.apply (op.within_unlimited _)
    obtain ⟨stays, inside⟩ := run_setAside sound' member own found' after
    rw [run_append,run_cons]
    apply Op.setAside_refused _ inside own stays
    exact sound'.run (runWithin_unlimited host _ after)

/-- A row is claimed, and claimed again a minute later; then its first holder comes back. -/
def lateHolder : List Op := [
  .reopen sampleNow sampleNow sampleNow,
  .beginTurn sampleIngress (sampleAdmission false) sampleNow,
  .claimNextOutbox "tenant-a" "worker-1" sampleNow 1000000000 "lease-1",
  .claimNextOutbox "tenant-a" "worker-2" sampleDeadline 1000000000 "lease-2",
  .renewOutboxLease "tenant-a" "outbox-1" "worker-1" "lease-1" sampleDeadline 1000000000]

theorem outbox_lease_fencing_late_holder : (claimTokens lateHolder).Nodup ∧
    Fenced sha256Host (Database.created "/var/lib/zaion/ledger.db" "instance-1") lateHolder :=
  ⟨by decide, outbox_lease_fencing sha256Host _ _ lateHolder (by decide)⟩

end Zaion.Turn
