import Zaion.Turn.Delivery
import Zaion.Turn.Recorded

/-! The invariant of the store, over all its tables. -/
namespace Zaion.Turn

open Lib

/-- Nothing is installed and nothing is written, or `open` has installed everything. -/
def SchemaSound (host : Host) (db : Database) : Prop :=
  (db.schema = [] ∧ db.migrations = [] ∧ db.outbox = []) ∨ Installed host db.schema db.migrations

structure TablesSound (host : Host) (limits : Limits) (db : Database) : Prop where
  exclusive : Exclusive db.actors db.turns
  recorded : Recorded host limits db.turns db.entries
  ordered : Ordered db
  delivery : Delivery host db
  chained : Ledger.Chained host db.events

structure Sound (host : Host) (limits : Limits) (db : Database) : Prop extends TablesSound host limits db where
  schema : SchemaSound host db

variable {host : Host} {limits : Limits} {db db' : Database}

/-- The tables do not depend on the schema entries. -/
theorem TablesSound.withSchema (sound : TablesSound host limits db) (schema : List SchemaEntry)
    (migrations : List MigrationRow) : TablesSound host limits { db with schema, migrations } where
  exclusive := sound.exclusive
  recorded := sound.recorded
  ordered := sound.ordered.frame rfl rfl rfl
  delivery := sound.delivery.frame rfl rfl rfl rfl (.refl _) List.prefix_rfl
  chained := sound.chained

theorem Sound.created (path instanceId : String) : Sound host limits (Database.created path instanceId) where
  exclusive := .empty
  recorded := .empty host limits
  ordered := ⟨List.nodup_nil, rfl, rfl⟩
  delivery := .empty rfl rfl rfl
  chained := Ledger.chained_nil host
  schema := Or.inl ⟨rfl, rfl, rfl⟩

/-- No row can be inserted before the order trigger is there. -/
theorem triggers_missing (none : db.schema = []) : validateNoExtraOutboxTriggers db ≠ .ok () := by
  simp [validateNoExtraOutboxTriggers,allTriggers,orderTriggers,checkAll,validateSchemaObject,
    schemaObjectSql,none]

theorem SchemaSound.step (schema : SchemaSound host db) (step : Step host limits db db') :
    SchemaSound host db' := by
  rcases schema with ⟨noSchema, noMigrations, noRows⟩ | installed
  · have missing := triggers_missing noSchema
    cases step with
    | turn step =>
      cases step with
      | admitRow turn owner now admission => exact absurd admission.insertable.installed missing
      | advance row next terminalJson terminalHash owner now advance =>
        exact absurd advance.insertable.installed missing
      | addActor | clear => exact Or.inl ⟨noSchema, noMigrations, noRows⟩
    | claim | renew | release | quarantine | deliver =>
      refine Or.inl ⟨noSchema, noMigrations, ?_⟩
      simp [Database.setOutbox,Table.modify,noRows]
    | migrate schema migrations new installed => exact Or.inr installed
    | repair | ledger => exact Or.inl ⟨noSchema, noMigrations, noRows⟩
  · cases step with
    | migrate schema migrations new fresh => exact Or.inr fresh
    | turn step => cases step <;> exact Or.inr installed
    | claim | renew | release | quarantine | deliver | repair | ledger => exact Or.inr installed

theorem Sound.step (sound : Sound host limits db) (step : Step host limits db db') : Sound host limits db' where
  exclusive := sound.exclusive.step step
  recorded := sound.recorded.step sound.exclusive step
  ordered := sound.ordered.step step
  delivery := sound.delivery.step sound.ordered sound.chained step
  chained := step.chained sound.chained
  schema := sound.schema.step step

theorem Sound.steps (sound : Sound host limits db) (steps : Steps host limits db db') : Sound host limits db' :=
  steps_keep Sound.step steps sound

section

variable (sound : TablesSound host limits db)
include sound

theorem TablesSound.outbox_owned {o : OutboxRow} (member : o ∈ db.outbox) :
    ∃ t ∈ db.turns, t.key = (o.tenantId, o.turnId) :=
  sound.recorded.owned o.toOutboxEntry (List.mem_map_of_mem member)

/-- Without outbox rows there are no turns. -/
theorem TablesSound.no_turns (none : db.outbox = []) : db.turns = [] := by
  apply List.eq_nil_iff_forall_not_mem.mpr
  intro t member
  obtain ⟨stages, life, rows⟩ := sound.recorded.lives t member
  have empty : entriesFrom host t.toTurnCore 0 Option.none stages = [] := by
    rw [← rows]
    simp [Database.entries,none]
  have := congrArg List.length empty
  rw [entriesFrom_length,life.length] at this
  cases this

/-- The outbox rows of a turn have the revisions from 0 up to the turn's. -/
theorem TablesSound.revisions {t : TurnRow} (member : t ∈ db.turns) :
    (db.outbox.filter (fun o => o.toOutboxEntry.ofTurn t.toTurnCore)).map (fun o => o.revision) =
      List.range' 0 (t.revision + 1) := by
  obtain ⟨stages, life, rows⟩ := sound.recorded.lives t member
  rw [← life.length,← entriesFrom_revisions,← rows,Database.entries,List.filter_map,List.map_map]
  rfl

end

end Zaion.Turn
