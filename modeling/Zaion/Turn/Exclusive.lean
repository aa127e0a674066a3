import Zaion.Turn.Step

/-! One live turn to an actor. That a turn is under way is stored twice, in the turn's
state and in the actor's row; the two agree after every step. -/
namespace Zaion.Turn

open Lib

/-- What the actor's row says of the turn it is busy with. -/
structure ActorRow.Busy (actor : ActorRow) (turn : TurnRow) : Prop where
  tenant : turn.tenantId = actor.tenantId
  actorKey : turn.actorKey = actor.actorKey
  live : turn.state.isTerminal = false
  owner : actor.leaseOwner.isSome = true
  lease : actor.leaseUntilMs = some turn.deadlineMs

structure Exclusive (actors : List ActorRow) (turns : List TurnRow) : Prop where
  actorKeys : Table.Keyed ActorRow.key actors
  turnKeys : Table.Keyed TurnRow.key turns
  admissions : Table.Keyed TurnRow.admission turns
  owned : ∀ t ∈ turns, ∃ a ∈ actors, a.key = (t.tenantId, t.actorKey)
  active : ∀ a ∈ actors, ∀ id, a.activeTurnId = some id → ∃ t ∈ turns, t.turnId = id ∧ a.Busy t
  live : ∀ t ∈ turns, t.state.isTerminal = false →
    ∃ a ∈ actors, a.key = (t.tenantId, t.actorKey) ∧ a.activeTurnId = some t.turnId
  inTime : ∀ t ∈ turns, t.state.isTerminal = false → t.updatedAtMs ≤ t.deadlineMs

theorem ActorRow.afterTransition_key (a : ActorRow) (row : TurnRow) (owner : String) (next : TurnState)
    (now : DateTime) : (a.afterTransition row owner next now).key = a.key := by
  unfold ActorRow.afterTransition
  split <;> rfl

theorem Exclusive.empty : Exclusive [] [] where
  actorKeys := List.nodup_nil
  turnKeys := List.nodup_nil
  admissions := List.nodup_nil
  owned := by simp
  active := by simp
  live := by simp
  inTime := by simp

section

variable {actors : List ActorRow} {turns : List TurnRow} (exclusive : Exclusive actors turns)
include exclusive

/-- The turn an actor is busy with is the one its row names. -/
theorem Exclusive.busy {a : ActorRow} {t : TurnRow} (actor : a ∈ actors) (turn : t ∈ turns)
    (tenant : t.tenantId = a.tenantId) (active : a.activeTurnId = some t.turnId) : a.Busy t := by
  obtain ⟨other, member, id, busy⟩ := exclusive.active a actor _ active
  have same : other = t := exclusive.turnKeys.eq_of_key member turn (Prod.ext (busy.tenant.trans tenant.symm) id)
  exact same ▸ busy

theorem Exclusive.addActor {row : ActorRow} (fresh : ∀ a ∈ actors, a.key ≠ row.key)
    (idle : row.activeTurnId = none) : Exclusive (actors ++ [row]) turns where
  actorKeys := exclusive.actorKeys.append fresh
  turnKeys := exclusive.turnKeys
  admissions := exclusive.admissions
  owned := by
    intro t member
    obtain ⟨a, actor, key⟩ := exclusive.owned t member
    exact ⟨a, List.mem_append_left _ actor, key⟩
  active := by
    intro a member id active
    rcases List.mem_append.mp member with old | new
    · exact exclusive.active a old id active
    · rw [List.mem_singleton.mp new,idle] at active
      cases active
  live := by
    intro t member live
    obtain ⟨a, actor, key⟩ := exclusive.live t member live
    exact ⟨a, List.mem_append_left _ actor, key⟩
  inTime := exclusive.inTime

/-- Admission gives an idle actor a new turn. -/
theorem Exclusive.admitRow {turn : TurnRow} {owner : String} {now : DateTime}
    (fresh : ∀ t ∈ turns, t.key ≠ turn.key) (unused : ∀ t ∈ turns, t.admission ≠ turn.admission)
    (idle : ∃ a, Table.select ActorRow.key (turn.tenantId, turn.actorKey) actors = some a ∧
      a.activeTurnId = none)
    (genesis : turn.state.isTerminal = false) (inTime : turn.updatedAtMs ≤ turn.deadlineMs) :
    Exclusive (Table.modify ActorRow.key (turn.tenantId, turn.actorKey)
      (·.leaseTo (some turn.turnId) (some owner) (some turn.deadlineMs) now) actors) (turns ++ [turn]) := by
  obtain ⟨holder, found, none⟩ := idle
  have holds := exclusive.actorKeys.select_iff.mp found
  refine ⟨exclusive.actorKeys.modify (fun _ _ _ => rfl), exclusive.turnKeys.append fresh,
    exclusive.admissions.append unused, ?_, ?_, ?_, ?_⟩
  · intro t member
    rcases List.mem_append.mp member with old | new
    · obtain ⟨a, actor, key⟩ := exclusive.owned t old
      rw [← key]
      apply Table.exists_mem_modify ActorRow.key ActorRow.key _ actor
      exact fun _ _ _ => rfl
    · obtain rfl := List.mem_singleton.mp new
      exact ⟨_, Table.mem_modify.mpr (Or.inl ⟨holder, holds.1, holds.2, rfl⟩), holds.2⟩
  · intro a member id active
    rcases Table.mem_modify.mp member with ⟨old, actor, key, rfl⟩ | ⟨actor, _⟩
    · obtain ⟨tenant, actorKey⟩ := Prod.mk.inj key
      refine ⟨turn, by simp, Option.some.inj active, tenant.symm, actorKey.symm, genesis, rfl, rfl⟩
    · obtain ⟨t, turn, id, busy⟩ := exclusive.active a actor id active
      exact ⟨t, List.mem_append_left _ turn, id, busy⟩
  · intro t member live
    rcases List.mem_append.mp member with old | new
    · obtain ⟨a, actor, key, active⟩ := exclusive.live t old live
      have other : a.key ≠ (turn.tenantId, turn.actorKey) := by
        intro same
        rw [exclusive.actorKeys.eq_of_key actor holds.1 (same.trans holds.2.symm),none] at active
        cases active
      exact ⟨a, Table.mem_modify.mpr (Or.inr ⟨actor, other⟩), key, active⟩
    · obtain rfl := List.mem_singleton.mp new
      exact ⟨_, Table.mem_modify.mpr (Or.inl ⟨holder, holds.1, holds.2, rfl⟩), holds.2, rfl⟩
  · intro t member live
    rcases List.mem_append.mp member with old | new
    · exact exclusive.inTime t old live
    · exact List.mem_singleton.mp new ▸ inTime

/-- A state change frees the actor when the turn ends and renews its lease when not. -/
theorem Exclusive.advance {row : TurnRow} {next : TurnState} {revision : Nat}
    {terminalJson terminalHash : Option String} {owner : String} {now : DateTime}
    (found : Table.select TurnRow.key row.key turns = some row)
    (leased : ∃ a, Table.select ActorRow.key (row.tenantId, row.actorKey) actors = some a ∧
      a.activeTurnId = some row.turnId ∧
      (next.isTerminal = false → ∃ ms, a.leaseUntilMs = some ms ∧ now.millis ≤ ms)) :
    Exclusive (Table.modify ActorRow.key (row.tenantId, row.actorKey) (·.afterTransition row owner next now) actors)
      (Table.modify TurnRow.key row.key (·.advanced next revision terminalJson terminalHash now) turns) := by
  obtain ⟨holder, held, active, early⟩ := leased
  have turn := Table.mem_of_select found
  have holds := exclusive.actorKeys.select_iff.mp held
  obtain ⟨tenant, actorKey⟩ := Prod.mk.inj holds.2
  have busy := exclusive.busy holds.1 turn tenant.symm active
  have itself : ∀ {t}, t ∈ turns → t.key = row.key → t = row :=
    fun member same => exclusive.turnKeys.eq_of_key member turn same
  refine ⟨exclusive.actorKeys.modify (fun a _ _ => ActorRow.afterTransition_key a row owner next now),
    exclusive.turnKeys.modify (fun _ _ _ => rfl), exclusive.admissions.modify (fun _ _ _ => rfl),
    ?_, ?_, ?_, ?_⟩
  · intro t member
    have source : ∃ s ∈ turns, s.tenantId = t.tenantId ∧ s.actorKey = t.actorKey := by
      rcases Table.mem_modify.mp member with ⟨s, old, _, rfl⟩ | ⟨old, _⟩
      · exact ⟨s, old, rfl, rfl⟩
      · exact ⟨t, old, rfl, rfl⟩
    obtain ⟨s, old, sameTenant, sameActor⟩ := source
    obtain ⟨a, actor, key⟩ := exclusive.owned s old
    obtain ⟨a', actor', key'⟩ := Table.exists_mem_modify ActorRow.key ActorRow.key
      (fun a _ _ => ActorRow.afterTransition_key a row owner next now) actor
    exact ⟨a', actor', by rw [key',key,sameTenant,sameActor]⟩
  · intro a member id isActive
    rcases Table.mem_modify.mp member with ⟨old, actor, key, rfl⟩ | ⟨actor, other⟩
    · have same := exclusive.actorKeys.eq_of_key actor holds.1 (key.trans holds.2.symm)
      subst same
      cases terminal : next.isTerminal with
      | true =>
        simp only [ActorRow.afterTransition,terminal,if_true] at isActive
        cases isActive
      | false =>
        simp only [ActorRow.afterTransition,terminal] at isActive ⊢
        exact ⟨_, Table.mem_modify.mpr (Or.inl ⟨row, turn, rfl, rfl⟩), Option.some.inj isActive,
          tenant.symm, actorKey.symm, terminal, rfl, rfl⟩
    · obtain ⟨t, member, rfl, busyWith⟩ := exclusive.active a actor id isActive
      have different : t.key ≠ row.key := by
        intro same
        obtain rfl := itself member same
        exact other (Prod.ext busyWith.tenant.symm busyWith.actorKey.symm)
      exact ⟨t, Table.mem_modify.mpr (Or.inr ⟨member, different⟩), rfl, busyWith⟩
  · intro t member live
    rcases Table.mem_modify.mp member with ⟨s, old, same, rfl⟩ | ⟨old, other⟩
    · obtain rfl := itself old same
      refine ⟨_, Table.mem_modify.mpr (Or.inl ⟨holder, holds.1, holds.2, rfl⟩), ?_, ?_⟩
      · exact (ActorRow.afterTransition_key ..).trans holds.2
      · have live : next.isTerminal = false := live
        simp [ActorRow.afterTransition,live,ActorRow.leaseTo,TurnRow.advanced]
    · obtain ⟨a, actor, key, isActive⟩ := exclusive.live t old live
      have different : a.key ≠ (row.tenantId, row.actorKey) := by
        intro same
        obtain rfl := exclusive.actorKeys.eq_of_key actor holds.1 (same.trans holds.2.symm)
        rw [active] at isActive
        exact other (Prod.ext (Prod.mk.inj (key.symm.trans same)).1 (Option.some.inj isActive).symm)
      exact ⟨a, Table.mem_modify.mpr (Or.inr ⟨actor, different⟩), key, isActive⟩
  · intro t member live
    rcases Table.mem_modify.mp member with ⟨s, old, same, rfl⟩ | ⟨old, _⟩
    · obtain rfl := itself old same
      obtain ⟨ms, lease, bound⟩ := early live
      rw [busy.lease] at lease
      cases lease
      exact bound
    · exact exclusive.inTime t old live

end

variable {host : Host} {limits : Limits} {db db' : Database}

theorem Exclusive.turnStep (exclusive : Exclusive db.actors db.turns) (step : TurnStep host limits db db') :
    Exclusive db'.actors db'.turns := by
  cases step with
  | addActor actor now fresh => exact exclusive.addActor fresh rfl
  | admitRow turn owner now admission =>
    refine exclusive.admitRow admission.fresh admission.unused admission.idle ?_ ?_
    · rcases admission.genesis with state | state <;> rw [state] <;> rfl
    · rw [admission.updated]
      exact admission.inTime
  | advance row next terminalJson terminalHash owner now advance =>
    exact exclusive.advance advance.found advance.leased
  | clear row now found terminal active =>
    obtain ⟨a, held, active⟩ := active
    have holds := exclusive.actorKeys.select_iff.mp held
    have busy := exclusive.busy holds.1 (Table.mem_of_select found) (Prod.mk.inj holds.2).1.symm active
    rw [busy.live] at terminal
    cases terminal

theorem Exclusive.step (exclusive : Exclusive db.actors db.turns) (step : Step host limits db db') :
    Exclusive db'.actors db'.turns := by
  cases step with
  | turn step => exact exclusive.turnStep step
  | claim | renew | release | quarantine | deliver | repair | ledger | migrate => exact exclusive

end Zaion.Turn
