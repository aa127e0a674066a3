import Zaion.Lib.Table
import Zaion.Memory.Typed

/-! What an upsert hands back. Every call has a connection of its own, whose last inserted id is 0
until it inserts a row; an upsert that finds the key updates the row and inserts none. -/
namespace Zaion.Memory

open Lib

section

variable {F : Type} {float : FloatOps F} {table next : MemoryTable F} {entry : TypedMemoryEntry F} {id rowid : Int}

/-- The states of a store. The engine draws ids from 1 on. -/
inductive Reached (float : FloatOps F) : MemoryTable F → Prop
  | empty : Reached float []
  | upsert {table next : MemoryTable F} {entry : TypedMemoryEntry F} {rowid id : Int} (before : Reached float table)
      (drawn : 1 ≤ rowid) (stored : upsert float table entry rowid = .ok (next, id)) : Reached float next
  | invalidate {table : MemoryTable F} (before : Reached float table) (principalId : String) (memoryType : MemoryType)
      (key now : String) : Reached float (invalidate table principalId memoryType key now)
  | updateConfidence {table next : MemoryTable F} {principalId : String} {memoryType : MemoryType} {key : String}
      {confidence : F} (before : Reached float table)
      (stored : updateConfidence float table principalId memoryType key confidence = .ok next) : Reached float next
  | delete {table : MemoryTable F} (before : Reached float table) (principalId : String) (memoryType : MemoryType)
      (key : String) : Reached float (delete table principalId memoryType key)
  | clearType {table : MemoryTable F} (before : Reached float table) (principalId : String) (memoryType : MemoryType) :
      Reached float (clearType table principalId memoryType).1
  | clearAll {table : MemoryTable F} (before : Reached float table) (principalId : String) :
      Reached float (clearAll table principalId).1

def MemoryRow.uniqueKey (row : MemoryRow F) : String × String × String := (row.principalId, row.memoryType, row.key)

/-- What the schema keeps: one row a key, ids from 1 on. -/
structure Schema (table : MemoryTable F) : Prop where
  unique : Table.Keyed MemoryRow.uniqueKey table
  drawn : ∀ row ∈ table, 1 ≤ row.id

theorem at_iff {principalId key : String} {memoryType : MemoryType} {row : MemoryRow F} :
    row.at principalId memoryType key = true ↔ row.uniqueKey = (principalId, memoryType.asStr, key) := by
  simp [MemoryRow.at,MemoryRow.uniqueKey,and_assoc]

theorem Schema.filter (schema : Schema table) (kept : MemoryRow F → Bool) : Schema (table.filter kept) where
  unique := List.Nodup.sublist (List.filter_sublist.map _) schema.unique
  drawn row member := schema.drawn row (List.mem_filter.mp member).1

theorem Schema.updateWhere (schema : Schema table) (at_ : MemoryRow F → Bool) {set : MemoryRow F → MemoryRow F}
    (keys : ∀ row, (set row).uniqueKey = row.uniqueKey) (ids : ∀ row, (set row).id = row.id) :
    Schema (updateWhere at_ set table) where
  unique := by
    have same : (Memory.updateWhere at_ set table).map MemoryRow.uniqueKey = table.map MemoryRow.uniqueKey := by
      rw [Memory.updateWhere,List.map_map]
      apply List.map_congr_left
      intro row _
      rw [Function.comp_apply]
      split
      · exact keys row
      · rfl
    exact (congrArg List.Nodup same).mpr schema.unique
  drawn row member := by
    obtain ⟨old, inside, rfl⟩ := List.mem_map.mp member
    split
    · rw [ids]
      exact schema.drawn old inside
    · exact schema.drawn old inside

/-- All an upsert that succeeds does. -/
theorem upsert_cases (stored : upsert float table entry rowid = .ok (next, id)) :
    float.isNan entry.confidence = false ∧
    ((table.any (MemoryRow.at entry.principalId entry.memoryType entry.key) = true ∧ id = 0 ∧
        next = updateWhere (MemoryRow.at entry.principalId entry.memoryType entry.key) (MemoryRow.overwrite entry) table) ∨
      table.any (MemoryRow.at entry.principalId entry.memoryType entry.key) = false ∧ id = rowid ∧
        next = table ++ [entryToRow rowid entry]) := by
  unfold upsert at stored
  split at stored
  · cases stored
  rename_i number
  refine ⟨Bool.eq_false_iff.mpr number, ?_⟩
  split at stored
  · rename_i present
    obtain ⟨rfl, rfl⟩ := Prod.mk.inj (Except.ok.inj stored)
    exact .inl ⟨present, rfl, rfl⟩
  · rename_i absent
    obtain ⟨rfl, rfl⟩ := Prod.mk.inj (Except.ok.inj stored)
    exact .inr ⟨Bool.eq_false_iff.mpr absent, rfl, rfl⟩

theorem absent_iff : table.any (MemoryRow.at entry.principalId entry.memoryType entry.key) = false ↔
    ∀ row ∈ table, row.at entry.principalId entry.memoryType entry.key = false := by
  simp

theorem at_entryToRow (id : Int) (entry : TypedMemoryEntry F) :
    (entryToRow id entry).at entry.principalId entry.memoryType entry.key = true := by
  simp [MemoryRow.at,entryToRow]

theorem Schema.upsert (schema : Schema table) (drawn : 1 ≤ rowid)
    (stored : upsert float table entry rowid = .ok (next, id)) : Schema next := by
  obtain ⟨-, ⟨-, -, rfl⟩ | ⟨absent, -, rfl⟩⟩ := upsert_cases stored
  · exact schema.updateWhere _ (fun _ => rfl) (fun _ => rfl)
  · constructor
    · apply schema.unique.append
      intro row inside same
      have other := absent_iff.mp absent row inside
      rw [at_iff.mpr (same.trans (at_iff.mp (at_entryToRow rowid entry)))] at other
      cases other
    · intro row member
      rcases List.mem_append.mp member with old | new
      · exact schema.drawn row old
      · obtain rfl := List.mem_singleton.mp new
        exact drawn

theorem Reached.schema (reached : Reached float table) : Schema table := by
  induction reached with
  | empty => exact ⟨by simp [Table.Keyed], by simp⟩
  | upsert _ drawn stored ih => exact ih.upsert drawn stored
  | invalidate _ _ _ _ _ ih => exact ih.updateWhere _ (fun _ => rfl) (fun _ => rfl)
  | updateConfidence _ stored ih =>
    unfold Memory.updateConfidence at stored
    simp only at stored
    split at stored
    · cases stored
    · cases stored
      exact ih.updateWhere _ (fun _ => rfl) (fun _ => rfl)
  | delete _ _ _ _ ih => exact ih.filter _
  | clearType _ _ _ ih => exact ih.filter _
  | clearAll _ _ ih => exact ih.filter _

/-- The id handed back is that of the one row with the key, the entry is read back with it, and
the other rows are as they were. -/
structure Identified (table next : MemoryTable F) (entry : TypedMemoryEntry F) (id : Int) : Prop where
  one : ∃ row ∈ next, row.at entry.principalId entry.memoryType entry.key = true ∧ row.id = id ∧
    ∀ other ∈ next, other.at entry.principalId entry.memoryType entry.key = true → other = row
  found : get next entry.principalId entry.memoryType entry.key = some { entry with id := some id }
  others : next.filter (fun row => !row.at entry.principalId entry.memoryType entry.key) =
    table.filter (fun row => !row.at entry.principalId entry.memoryType entry.key)

theorem identified_of_absent (absent : table.any (MemoryRow.at entry.principalId entry.memoryType entry.key) = false) :
    Identified table (table ++ [entryToRow rowid entry]) entry rowid where
  one := by
    refine ⟨entryToRow rowid entry, by simp, at_entryToRow rowid entry, rfl, ?_⟩
    intro other member chosen
    rcases List.mem_append.mp member with old | new
    · rw [absent_iff.mp absent other old] at chosen
      cases chosen
    · exact List.mem_singleton.mp new
  found := by
    have missing : table.find? (MemoryRow.at entry.principalId entry.memoryType entry.key) = none := by
      rw [List.find?_eq_none]
      intro row inside
      simp [absent_iff.mp absent row inside]
    simp [get,List.find?_append,missing,at_entryToRow,rowToEntry_entryToRow]
  others := by simp [List.filter_append,at_entryToRow]

/-- In every state, an upsert identifies its row exactly when the key is new and the confidence a number. -/
theorem upsert_identifies_iff (reached : Reached float table) (entry : TypedMemoryEntry F) (drawn : 1 ≤ rowid) :
    (∃ next id, upsert float table entry rowid = .ok (next, id) ∧ Identified table next entry id) ↔
      float.isNan entry.confidence = false ∧
        ∀ row ∈ table, row.at entry.principalId entry.memoryType entry.key = false := by
  constructor
  · rintro ⟨next, id, stored, identified⟩
    obtain ⟨number, ⟨-, rfl, -⟩ | ⟨absent, -, -⟩⟩ := upsert_cases stored
    · -- No row has the id 0.
      obtain ⟨row, inside, -, zero, -⟩ := identified.one
      have positive := (reached.schema.upsert drawn stored).drawn row inside
      omega
    · exact ⟨number, absent_iff.mp absent⟩
  · rintro ⟨number, absent⟩
    have absent := absent_iff.mpr absent
    refine ⟨_, rowid, ?_, identified_of_absent absent⟩
    simp only [upsert,number,absent]
    rfl

end

def roleMemory (content : String) : TypedMemoryEntry Nat :=
  ⟨none, .user, "role", content, "zaion107", "session-1", "2026-01-01T00:00:00+00:00", none, 1000, "chat", ""⟩

theorem first_upsert_identified : ∃ next id, upsert thousandths [] (roleMemory "engineer") 1 = .ok (next, id) ∧
    Identified [] next (roleMemory "engineer") id :=
  (upsert_identifies_iff .empty (roleMemory "engineer") (by decide)).mpr ⟨rfl, by simp⟩

/-- The second upsert of a key says 0, while the row keeps the id 1. -/
theorem second_upsert_says_zero : ∃ table next,
    upsert thousandths [] (roleMemory "engineer") 1 = .ok (table, 1) ∧
    upsert thousandths table (roleMemory "manager") 2 = .ok (next, 0) ∧
    get next "zaion107" .user "role" = some { roleMemory "manager" with id := some 1 } ∧
    ¬ Identified table next (roleMemory "manager") 0 := by
  refine ⟨_, _, rfl, rfl, rfl, ?_⟩
  intro identified
  have found := identified.found
  revert found
  decide

end Zaion.Memory
