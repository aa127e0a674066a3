import Zaion.Turn.Fencing

/-! Clocks of the outbox. Workers bring their own clocks, which may run backwards; what a row
says of its times keeps any of them from setting the row back. -/
namespace Zaion.Turn

open Lib Ledger

variable {host : Host} {limits : Limits} {db db' : Database}

/-- What a call does to one row. -/
inductive Tick (o : OutboxRow) : OutboxRow → Prop
  | rest : Tick o o
  | claim (owner token : String) (untilMs nowMs : Int) (available : o.availableAtMs ≤ nowMs)
      (claimable : o.claimable nowMs = true) (ahead : nowMs < untilMs) : Tick o (o.claimed owner token untilMs nowMs)
  | renew (owner token : String) (untilMs nowMs : Int) (held : o.heldBy owner token nowMs = true)
      (monotone : o.updatedAtMs ≤ nowMs) (ahead : nowMs < untilMs) : Tick o (o.renewed untilMs nowMs)
  | release (owner token : String) (availableMs nowMs : Int) (error : String) (held : o.heldBy owner token nowMs = true)
      (monotone : o.updatedAtMs ≤ nowMs) (later : nowMs ≤ availableMs) : Tick o (o.released availableMs nowMs error)
  | deliver (owner token eventId : String) (nowMs : Int) (held : o.heldBy owner token nowMs = true)
      (monotone : o.updatedAtMs ≤ nowMs) : Tick o (o.deliver eventId nowMs)

/-- Times of a row that no call can set back. -/
structure Clocked (o : OutboxRow) : Prop where
  whenPending : o.status = .pending → o.updatedAtMs ≤ o.availableAtMs
  whenLeased : o.status = .leased → o.availableAtMs ≤ o.updatedAtMs ∧ ∃ untilMs, o.leaseUntilMs = some untilMs ∧
    o.updatedAtMs < untilMs
  ordered : o.timestampsOrdered

theorem OutboxEntry.pending_clocked (entry : OutboxEntry) : Clocked entry.pending where
  whenPending := fun _ => le_refl _
  whenLeased := fun leased => by cases leased
  ordered := by simp [pending,OutboxRow.timestampsOrdered]

theorem OutboxRow.heldBy_status {o : OutboxRow} {owner token : String} {nowMs : Int} (held : o.heldBy owner token nowMs = true) :
    o.status = .leased := by
  simp only [heldBy,Bool.and_eq_true,decide_eq_true_eq] at held
  exact held.1.1.1

/-- A row that may be claimed was last touched before. -/
theorem Clocked.claimable_le {o : OutboxRow} {nowMs : Int} (clocked : Clocked o) (available : o.availableAtMs ≤ nowMs)
    (claimable : o.claimable nowMs = true) : o.updatedAtMs ≤ nowMs := by
  simp only [OutboxRow.claimable,Bool.or_eq_true,Bool.and_eq_true,decide_eq_true_eq] at claimable
  rcases claimable with pending | ⟨leased, over_⟩
  · exact (clocked.whenPending pending).trans available
  · obtain ⟨_, untilMs, lease, ahead⟩ := clocked.whenLeased leased
    simp only [lease,decide_eq_true_eq] at over_
    omega

theorem Tick.updated_le {o o' : OutboxRow} (clocked : Clocked o) (tick : Tick o o') : o.updatedAtMs ≤ o'.updatedAtMs := by
  cases tick with
  | rest => exact le_refl _
  | claim _ _ _ _ available claimable => exact clocked.claimable_le available claimable
  | renew _ _ _ _ _ monotone => exact monotone
  | release _ _ _ _ _ _ monotone => exact monotone
  | deliver _ _ _ _ _ monotone => exact monotone

theorem Tick.entry {o o' : OutboxRow} (tick : Tick o o') : o'.toOutboxEntry = o.toOutboxEntry := by cases tick <;> rfl

theorem Clocked.tick {o o' : OutboxRow} (clocked : Clocked o) (tick : Tick o o') : Clocked o' := by
  have updated := tick.updated_le clocked
  have created := clocked.ordered
  cases tick with
  | rest => exact clocked
  | claim owner token untilMs nowMs available claimable ahead =>
    refine ⟨(fun pending => by cases pending), fun _ => ⟨available, untilMs, rfl, ahead⟩, ?_⟩
    have sound := created.2.1.trans updated
    simp only [OutboxRow.claimed] at sound
    refine ⟨created.1, sound, ?_, created.2.2.2⟩
    rintro ms ⟨⟩
    exact sound.trans ahead.le
  | renew owner token untilMs nowMs held monotone ahead =>
    have status := OutboxRow.heldBy_status held
    obtain ⟨available, _⟩ := clocked.whenLeased status
    have sound := created.2.1.trans monotone
    refine ⟨fun pending => ?_, fun _ => ⟨available.trans monotone, untilMs, rfl, ahead⟩, created.1, sound, ?_, created.2.2.2⟩
    · rw [show (o.renewed untilMs nowMs).status = o.status from rfl,status] at pending
      cases pending
    · rintro ms ⟨⟩
      exact sound.trans ahead.le
  | release owner token availableMs nowMs error held monotone later =>
    have sound := created.2.1.trans monotone
    exact ⟨fun _ => later, (fun leased => by cases leased), sound.trans later, sound, by simp [OutboxRow.released], created.2.2.2⟩
  | deliver owner token eventId nowMs held monotone =>
    have sound := created.2.1.trans monotone
    refine ⟨(fun pending => by cases pending), (fun leased => by cases leased), created.1, sound, by simp [OutboxRow.deliver], ?_⟩
    rintro ms ⟨⟩
    exact sound

/-- Each row ticks where it is, and new rows are pending. -/
structure Ticks (db db' : Database) : Prop where
  rows : ∀ (i : Nat) (o : OutboxRow), db.outbox[i]? = some o → ∃ o', db'.outbox[i]? = some o' ∧ Tick o o'
  new : ∀ (i : Nat) (o' : OutboxRow), db'.outbox[i]? = some o' →
    (∃ o, db.outbox[i]? = some o) ∨ ∃ entry : OutboxEntry, o' = entry.pending

theorem Ticks.same (same : db'.outbox = db.outbox) : Ticks db db' :=
  ⟨fun _ o here => ⟨o, same ▸ here, .rest⟩, fun _ o' there => .inl ⟨o', same ▸ there⟩⟩

theorem TurnStep.ticks (step : TurnStep host limits db db') : Ticks db db' := by
  have append : ∀ (entry : OutboxEntry) {db' : Database}, db'.outbox = db.outbox ++ [entry.pending] → Ticks db db' := by
    intro entry db' rows
    refine ⟨?_, ?_⟩
    · intro i o here
      refine ⟨o, ?_, .rest⟩
      rw [rows,List.getElem?_append_left (List.getElem?_eq_some_iff.mp here).1,here]
    · intro i o' there
      rw [rows] at there
      by_cases old : i < db.outbox.length
      · exact .inl ⟨_, List.getElem?_eq_getElem old⟩
      · rw [List.getElem?_append_right (Nat.le_of_not_lt old),List.getElem?_singleton] at there
        split at there
        · exact .inr ⟨entry, (Option.some.inj there).symm⟩
        · cases there
  cases step with
  | admitRow | advance => exact append _ rfl
  | addActor | clear => exact .same rfl

/-- A row is changed in its place. -/
theorem Ticks.touch {i : Nat} {o o' : OutboxRow} (position : db.outbox[i]? = some o) (rows : db'.outbox = db.outbox.set i o')
    (tick : Tick o o') : Ticks db db' := by
  refine ⟨?_, ?_⟩
  · intro j other here
    by_cases same : i = j
    · obtain rfl := same
      obtain rfl := Option.some.inj (position.symm.trans here)
      exact ⟨o', by rw [rows,List.getElem?_set_self (List.getElem?_eq_some_iff.mp position).1], tick⟩
    · exact ⟨other, by rw [rows,List.getElem?_set_ne same,here], .rest⟩
  · intro j other there
    have inside : j < db'.outbox.length := (List.getElem?_eq_some_iff.mp there).1
    rw [rows,List.length_set] at inside
    exact .inl ⟨_, List.getElem?_eq_getElem inside⟩

/-- The rows of a database are clocked. -/
def AllClocked (db : Database) : Prop := ∀ o ∈ db.outbox, Clocked o

theorem AllClocked.ticks (clocked : AllClocked db) (ticks : Ticks db db') : AllClocked db' := by
  intro o' member
  obtain ⟨i, there⟩ := List.getElem?_of_mem member
  rcases ticks.new i o' there with ⟨o, here⟩ | ⟨entry, rfl⟩
  · obtain ⟨other, found, tick⟩ := ticks.rows i o here
    obtain rfl := Option.some.inj (found.symm.trans there)
    exact (clocked o (List.mem_of_getElem? here)).tick tick
  · exact entry.pending_clocked

/-- The rows stay where they are, clocked, and none is set back. -/
structure Forward (db db' : Database) : Prop where
  clocked : AllClocked db'
  rows : ∀ (i : Nat) (o : OutboxRow), db.outbox[i]? = some o → ∃ o', db'.outbox[i]? = some o' ∧
    o'.toOutboxEntry = o.toOutboxEntry ∧ o.updatedAtMs ≤ o'.updatedAtMs

theorem AllClocked.forward (clocked : AllClocked db) (ticks : Ticks db db') : Forward db db' := by
  refine ⟨clocked.ticks ticks, ?_⟩
  intro i o here
  obtain ⟨o', there, tick⟩ := ticks.rows i o here
  exact ⟨o', there, tick.entry, tick.updated_le (clocked o (List.mem_of_getElem? here))⟩

theorem Forward.trans {db'' : Database} (first : Forward db db') (second : Forward db' db'') : Forward db db'' := by
  refine ⟨second.clocked, ?_⟩
  intro i o here
  obtain ⟨o', there, entry, le⟩ := first.rows i o here
  obtain ⟨o'', last, entry', le'⟩ := second.rows i o' there
  exact ⟨o'', last, entry'.trans entry, le.trans le'⟩

theorem AllClocked.turnSteps (clocked : AllClocked db) (steps : TurnSteps host limits db db') : Forward db db' :=
  steps_keep (P := Forward db) (fun before step => before.trans (before.clocked.forward step.ticks)) steps
    (clocked.forward (.same rfl))

/-- The holder of a lease changes the row it holds. -/
theorem Holds.ticks {tenantId outboxId owner token : String} {now : DateTime} {i : Nat} {row : OutboxRow}
    {f : OutboxRow → OutboxRow} (ordered : Ordered db) (holds : Holds db tenantId outboxId owner token now i row)
    (rows : db'.outbox = Table.modify outboxKey row.key f db.outbox) (tick : Tick row (f row)) : Ticks db db' := by
  refine .touch holds.head.position ?_ tick
  rw [rows]
  exact ordered.keyed.modify_eq_set holds.head.position

/-- What a call that succeeds does to the rows. -/
theorem Op.forward {op : Op} (sound : Sound host unlimited db) (clocked : AllClocked db) (done : op.exec host db = .ok db') :
    Forward db db' := by
  have ordered := sound.ordered
  cases op with
  | reopen orderAt quarantineAt verifiedAt =>
    obtain ⟨_, _, opens, _⟩ := sound.openStore_ok orderAt quarantineAt verifiedAt
    obtain rfl := Except.ok.inj (opens.symm.trans done)
    exact clocked.forward (.same rfl)
  | beginTurn ingress admission now =>
    obtain ⟨result, ok, rfl⟩ := map_ok_iff.mp done
    have steps : TurnSteps host unlimited db result.1 :=
      beginTurn_steps sound.exclusive.turnKeys trivial (fun _ => trivial) ok
    exact clocked.turnSteps steps
  | approveTurn tenantId turnId now =>
    obtain ⟨result, ok, rfl⟩ := map_ok_iff.mp done
    have step : TurnStep host unlimited db result.1 := approveTurn_step trivial ok
    exact clocked.forward step.ticks
  | compareAndTransition =>
    obtain ⟨result, ok, rfl⟩ := map_ok_iff.mp done
    have step : TurnStep host unlimited db result.1 := compareAndTransitionTurn_step trivial ok
    exact clocked.forward step.ticks
  | compareAndTransitionWithResult =>
    obtain ⟨result, ok, rfl⟩ := map_ok_iff.mp done
    have step : TurnStep host unlimited db result.1 := compareAndTransitionWithResult_step trivial ok
    exact clocked.forward step.ticks
  | recoverExpiredActorLeases tenantId now limit =>
    obtain ⟨result, ok, rfl⟩ := map_ok_iff.mp done
    have steps : TurnSteps host unlimited db result.1 := recoverActors_steps trivial ok
    exact clocked.turnSteps steps
  | claimNextOutbox tenantId owner now duration token =>
    obtain ⟨⟨after, claimed⟩, ok, rfl⟩ := map_ok_iff.mp done
    rcases claimNextOutbox_ok ordered ok with ⟨rfl, _⟩ | ⟨_, i, row, untilMs, _, _, claims⟩
    · exact clocked.forward (.same rfl)
    · refine clocked.forward (.touch claims.head.position ?_
        (.claim owner token untilMs now.millis claims.available claims.claimable claims.ahead))
      rw [claims.result]
      exact ordered.keyed.modify_eq_set claims.head.position
  | renewOutboxLease tenantId outboxId owner token now duration =>
    obtain ⟨result, ok, rfl⟩ := map_ok_iff.mp done
    obtain ⟨i, row, untilMs, holds, _, same, _, ahead⟩ := renewOutboxLease_ok ordered ok
    exact clocked.forward (holds.ticks ordered (congrArg Database.outbox same)
      (.renew owner token untilMs now.millis holds.held holds.monotone ahead))
  | releaseOutbox tenantId outboxId owner token now availableAt error =>
    obtain ⟨i, row, holds, same, _, later⟩ := releaseOutbox_ok ordered done
    exact clocked.forward (holds.ticks ordered (congrArg Database.outbox same)
      (.release owner token availableAt.millis now.millis error holds.held holds.monotone later))
  | completeOutbox tenantId outboxId owner token commit now ledgerPath ledgerInstanceId =>
    obtain ⟨⟨after, completion⟩, ok, rfl⟩ := map_ok_iff.mp done
    obtain ⟨row, member, _, completes⟩ := completeOutbox_ok ordered ok
    cases completes with
    | already | repaired => exact clocked.forward (.same rfl)
    | delivered i v holds =>
      exact clocked.forward (holds.ticks ordered rfl
        (.deliver owner token v.ledgerEventId now.millis holds.held holds.monotone))
  | quarantineOutbox claim failure exhausted now =>
    obtain ⟨result, ok, rfl⟩ := map_ok_iff.mp done
    obtain ⟨i, row, q, owner, token, _, _, holds, _, same, _⟩ := quarantineOutbox_ok ordered ok
    exact clocked.forward (holds.ticks ordered (congrArg Database.outbox same)
      (.release owner token now.millis now.millis failure.message holds.held holds.monotone (le_refl _)))
  | ledgerWrite | appendVerified =>
    cases done
    exact clocked.forward (.same rfl)

theorem Op.apply_forward {op : Op} (sound : Sound host unlimited db) (clocked : AllClocked db) :
    Forward db (op.apply host db) := by
  unfold Op.apply
  split
  · rename_i done
    exact op.forward sound clocked done
  · exact clocked.forward (.same rfl)

theorem run_clocked (host : Host) (path instanceId : String) (ops : List Op) :
    AllClocked (run host (Database.created path instanceId) ops) := by
  have start : AllClocked (Database.created path instanceId) := by simp [AllClocked,Database.created]
  have sound : Sound host unlimited (Database.created path instanceId) := .created path instanceId
  generalize Database.created path instanceId = db at start sound
  induction ops generalizing db with
  | nil => exact start
  | cons op ops ih => exact ih (op.apply host db) (op.apply_forward sound start).clocked (sound.apply (op.within_unlimited db))

/-- The error that times of a row out of order are reported by. -/
def TurnStoreError.isTimestamps (error : TurnStoreError) : Prop := error = .recordBindingMismatch "outbox.timestamps"

attribute [local simp] TurnStoreError.isTimestamps avoids_bind_iff

theorem Clocked.materializeOutbox_avoids {o : OutboxRow} (clocked : Clocked o) (order : OrderRow) (verified : Option EvidenceRow) :
    Avoids TurnStoreError.isTimestamps (materializeOutbox host o order verified) := by
  have bindings : ∀ payload, Avoids TurnStoreError.isTimestamps (verifyOutboxBindings host o.toOutboxEntry payload) := by
    intro payload
    simp [verifyOutboxBindings,verifyJsonTextBinding]
  have status : Avoids TurnStoreError.isTimestamps (validateOutboxStatusBindings o verified) := by
    simp [validateOutboxStatusBindings,clocked.ordered]
  have timestamps : ∀ field ms, Avoids TurnStoreError.isTimestamps (parseTimestampOption field ms) := by
    intro field ms
    cases ms <;> simp [parseTimestampOption,parseTimestamp]
  simp [materializeOutbox,verifyStoredHash,fromText,parseTimestamp,bindings,status,timestamps]

theorem AllClocked.requireOutbox_avoids (clocked : AllClocked db) (tenantId outboxId : String) :
    Avoids TurnStoreError.isTimestamps (requireOutbox host db tenantId outboxId) := by
  unfold requireOutbox
  split
  · simp
  · rename_i row found
    have own := clocked row (Table.mem_of_select found)
    have selects : Avoids TurnStoreError.isTimestamps (selectOutbox host db row) := by
      unfold selectOutbox
      split <;> simp [own.materializeOutbox_avoids]
    simp [selects]

/-- In every state that calls reach, whatever clocks their callers bring, the times of each row are in order, no call sets a
row back, and no row fails to load over its times. -/
theorem outbox_clocks (host : Host) (path instanceId : String) (ops : List Op) :
    (∀ o ∈ (run host (Database.created path instanceId) ops).outbox,
      (o.status = .pending → o.updatedAtMs ≤ o.availableAtMs) ∧
      (o.status = .leased → o.availableAtMs ≤ o.updatedAtMs ∧
        ∃ untilMs, o.leaseUntilMs = some untilMs ∧ o.updatedAtMs < untilMs)) ∧
    (∀ (op : Op) (i : Nat) (o : OutboxRow), (run host (Database.created path instanceId) ops).outbox[i]? = some o →
      ∃ o', (op.apply host (run host (Database.created path instanceId) ops)).outbox[i]? = some o' ∧ o'.key = o.key ∧
        o.updatedAtMs ≤ o'.updatedAtMs) ∧
    ∀ tenantId outboxId, requireOutbox host (run host (Database.created path instanceId) ops) tenantId outboxId ≠
      .error (.recordBindingMismatch "outbox.timestamps") := by
  have clocked := run_clocked host path instanceId ops
  have sound := run_sound host path instanceId ops
  refine ⟨?_, ?_, ?_⟩
  · intro o member
    exact ⟨(clocked o member).whenPending, (clocked o member).whenLeased⟩
  · intro op i o here
    obtain ⟨o', there, entry, le⟩ := (op.apply_forward sound clocked).rows i o here
    exact ⟨o', there, congrArg OutboxEntry.key entry, le⟩
  · intro tenantId outboxId failed
    exact clocked.requireOutbox_avoids tenantId outboxId _ failed rfl

end Zaion.Turn
