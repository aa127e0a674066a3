import Mathlib.Data.List.AList
import Mathlib.Data.List.Nodup
import Mathlib.Data.List.Pairwise

/-! Tables with a unique key: a list of rows in insertion order, no two with one key.
`SELECT .. WHERE key = ?`, `UPDATE .. WHERE key = ?` and its count of changed rows. -/
namespace Zaion.Lib.Table

section

variable {α κ : Type} {key : α → κ}

/-- No two rows share a key. -/
def Keyed (key : α → κ) (rows : List α) : Prop := (rows.map key).Nodup

theorem Keyed.eq_of_key {rows : List α} (keyed : Keyed key rows) {r s : α}
    (hr : r ∈ rows) (hs : s ∈ rows) (same : key r = key s) : r = s :=
  List.inj_on_of_nodup_map keyed hr hs same

theorem Keyed.append {rows : List α} (keyed : Keyed key rows) {r : α}
    (fresh : ∀ s ∈ rows, key s ≠ key r) : Keyed key (rows ++ [r]) := by
  unfold Keyed at *
  rw [List.map_append,List.nodup_append]
  refine ⟨keyed, by simp, ?_⟩
  rintro a ha b hb rfl
  obtain ⟨s, hs, rfl⟩ := List.mem_map.mp ha
  simp only [List.map_cons,List.map_nil,List.mem_singleton] at hb
  exact fresh s hs hb

theorem Keyed.of_append {rows : List α} {r : α} (keyed : Keyed key (rows ++ [r])) :
    ∀ s ∈ rows, key s ≠ key r := by
  unfold Keyed at keyed
  rw [List.map_append,List.nodup_append] at keyed
  exact fun s hs => keyed.2.2 (key s) (List.mem_map_of_mem hs) (key r) (by simp)

/-- Rows other than the one replaced stay. -/
theorem mem_set_of_ne {rows : List α} {i : Nat} {r r' s : α} (position : rows[i]? = some r) (inside : s ∈ rows)
    (other : s ≠ r) : s ∈ rows.set i r' := by
  obtain ⟨j, here⟩ := List.mem_iff_getElem?.mp inside
  apply List.mem_of_getElem? (i := j)
  rw [List.getElem?_set_ne]
  · exact here
  · rintro rfl
    exact other (Option.some.inj (here.symm.trans position))

end

section

variable {α κ : Type} [DecidableEq κ] (key : α → κ)

/-- The row with a key. -/
def select (k : κ) (rows : List α) : Option α := rows.find? (fun r => decide (key r = k))

/-- `UPDATE` of the row with a key. -/
def modify (k : κ) (f : α → α) (rows : List α) : List α :=
  rows.map (fun r => if key r = k then f r else r)

/-- `UPDATE .. WHERE key = ? AND ..`; `none` when it changes no row. -/
def update (k : κ) (cond : α → Bool) (f : α → α) (rows : List α) : Option (List α) :=
  match select key k rows with
  | some r => if cond r then some (modify key k f rows) else none
  | none => none

theorem update_iff {key : α → κ} {k : κ} {cond : α → Bool} {f : α → α} {rows rows' : List α} :
    update key k cond f rows = some rows' ↔
      ∃ r, select key k rows = some r ∧ cond r = true ∧ modify key k f rows = rows' := by
  unfold update
  cases select key k rows <;> simp

theorem mem_of_select {key : α → κ} {k : κ} {rows : List α} {r : α} (found : select key k rows = some r) :
    r ∈ rows := List.mem_of_find?_eq_some found

theorem key_of_select {key : α → κ} {k : κ} {rows : List α} {r : α} (found : select key k rows = some r) :
    key r = k := by simpa using List.find?_some found

theorem select_none_iff {key : α → κ} {k : κ} {rows : List α} :
    select key k rows = none ↔ ∀ r ∈ rows, key r ≠ k := by
  simp [select]

theorem Keyed.select_mem {key : α → κ} {rows : List α} (keyed : Keyed key rows) {r : α} (hr : r ∈ rows) :
    select key (key r) rows = some r := by
  cases found : select key (key r) rows with
  | none => exact absurd rfl (select_none_iff.mp found r hr)
  | some s =>
    exact congrArg some (keyed.eq_of_key (mem_of_select found) hr (key_of_select found))

theorem Keyed.select_iff {key : α → κ} {rows : List α} (keyed : Keyed key rows) {k : κ} {r : α} :
    select key k rows = some r ↔ r ∈ rows ∧ key r = k := by
  constructor
  · exact fun found => ⟨mem_of_select found, key_of_select found⟩
  · rintro ⟨member, rfl⟩
    exact keyed.select_mem member

theorem select_append_of_ne {key : α → κ} {rows : List α} {r : α} {k : κ} (other : key r ≠ k) :
    select key k (rows ++ [r]) = select key k rows := by
  simp [select,List.find?_append,other]

theorem select_append_new {key : α → κ} {rows : List α} {r : α} (fresh : ∀ s ∈ rows, key s ≠ key r) :
    select key (key r) (rows ++ [r]) = some r := by
  have missing := select_none_iff.mpr fresh
  simp only [select] at missing
  simp [select,List.find?_append,missing]

variable {key}

theorem mem_modify {k : κ} {f : α → α} {rows : List α} {r : α} :
    r ∈ modify key k f rows ↔ (∃ s ∈ rows, key s = k ∧ f s = r) ∨ (r ∈ rows ∧ key r ≠ k) := by
  simp only [modify,List.mem_map]
  constructor
  · rintro ⟨s, hs, rfl⟩
    by_cases same : key s = k
    · exact Or.inl ⟨s, hs, same, by simp [same]⟩
    · exact Or.inr (by simp [same,hs])
  · rintro (⟨s, hs, same, rfl⟩ | ⟨hr, other⟩)
    · exact ⟨s, hs, by simp [same]⟩
    · exact ⟨r, hr, by simp [other]⟩

/-- A projection that the update leaves alone sees the same table. -/
theorem map_modify {β : Type} {k : κ} {f : α → α} {g : α → β} {rows : List α}
    (kept : ∀ r ∈ rows, key r = k → g (f r) = g r) : (modify key k f rows).map g = rows.map g := by
  rw [modify,List.map_map]
  apply List.map_congr_left
  intro r hr
  by_cases same : key r = k
  · simpa [same] using kept r hr same
  · simp [same]

theorem length_modify {k : κ} {f : α → α} {rows : List α} :
    (modify key k f rows).length = rows.length := by simp [modify]

theorem Keyed.modify {β : Type} {k : κ} {f : α → α} {g : α → β} {rows : List α} (keyed : Keyed g rows)
    (kept : ∀ r ∈ rows, key r = k → g (f r) = g r) : Keyed g (modify key k f rows) := by
  unfold Keyed at *
  rwa [map_modify kept]

/-- Every row is still there, under a projection that the update leaves alone. -/
theorem exists_mem_modify {β : Type} (key : α → κ) {k : κ} {f : α → α} (g : α → β) {rows : List α}
    (kept : ∀ r ∈ rows, key r = k → g (f r) = g r) {r : α} (member : r ∈ rows) :
    ∃ s ∈ Table.modify key k f rows, g s = g r := by
  have inside : g r ∈ (Table.modify key k f rows).map g := by
    rw [map_modify kept]
    exact List.mem_map_of_mem member
  exact List.mem_map.mp inside

/-- An update by key is an update in place. -/
theorem Keyed.modify_eq_set {f : α → α} {rows : List α} (keyed : Keyed key rows) {i : Nat} {r : α}
    (found : rows[i]? = some r) : Table.modify key (key r) f rows = rows.set i (f r) := by
  apply List.ext_getElem?
  intro j
  rw [Table.modify,List.getElem?_map,List.getElem?_set]
  by_cases same : i = j
  · subst same
    rw [found,if_pos rfl,if_pos (List.getElem?_eq_some_iff.mp found).1,Option.map_some,if_pos rfl]
  · rw [if_neg same]
    cases here : rows[j]? with
    | none => rfl
    | some s =>
      have other : key s ≠ key r := by
        intro equal
        apply same
        have left : (rows.map key)[i]? = some (key r) := by simp [found]
        have right : (rows.map key)[j]? = some (key r) := by simp [here,equal]
        exact (List.getElem?_inj (List.getElem?_eq_some_iff.mp left).1 keyed).mp (left.trans right.symm)
      simp [other]

/-- `DELETE` by key is an erasure at one place. -/
theorem Keyed.filter_ne_eq_eraseIdx {rows : List α} (keyed : Keyed key rows) {i : Nat} {r : α}
    (found : rows[i]? = some r) : rows.filter (fun s => decide (key s ≠ key r)) = rows.eraseIdx i := by
  induction rows generalizing i with
  | nil => simp at found
  | cons s rows ih =>
    obtain ⟨fresh, tail⟩ := List.nodup_cons.mp keyed
    cases i with
    | zero =>
      obtain rfl : s = r := by simpa using found
      have others : ∀ t ∈ rows, key t ≠ key s := fun t member same => fresh (same ▸ List.mem_map_of_mem member)
      simpa [List.filter_eq_self] using others
    | succ i =>
      have found : rows[i]? = some r := by simpa using found
      have other : key s ≠ key r := fun same => fresh (same ▸ List.mem_map_of_mem (List.mem_of_getElem? found))
      rw [List.filter_cons_of_pos (by simpa using other),ih tail found,List.eraseIdx_cons_succ]

theorem select_filter_self {k : κ} {rows : List α} : select key k (rows.filter (fun r => decide (key r ≠ k))) = none := by
  simp [select_none_iff]

theorem select_filter_other {k l : κ} {rows : List α} (other : l ≠ k) :
    select key l (rows.filter (fun r => decide (key r ≠ k))) = select key l rows := by
  rw [select,select,List.find?_filter]
  congr 1
  funext r
  by_cases same : key r = l
  · simp [same,other]
  · simp [same]

theorem select_eraseP_other {k l : κ} {rows : List α} (other : l ≠ k) :
    select key l (rows.eraseP (fun r => decide (key r = k))) = select key l rows := by
  induction rows with
  | nil => rfl
  | cons r rows ih =>
    by_cases same : key r = k
    · simp [select,same,other.symm]
    · simp only [select] at ih
      simp [select,same,List.find?_cons,ih]

/-- The updated row is found under its key. -/
theorem select_modify_self {k : κ} {f : α → α} {rows : List α} (kept : ∀ r, key r = k → key (f r) = k) :
    select key k (modify key k f rows) = (select key k rows).map f := by
  induction rows with
  | nil => rfl
  | cons r rows ih =>
    simp only [select,modify,List.map_cons,List.find?_cons] at *
    by_cases same : key r = k
    · simp [same,kept r same]
    · simp [same,ih]

theorem select_modify_other {k l : κ} {f : α → α} {rows : List α}
    (kept : ∀ r ∈ rows, key r = k → key (f r) = k) (other : l ≠ k) :
    select key l (modify key k f rows) = select key l rows := by
  induction rows with
  | nil => rfl
  | cons r rows ih =>
    have ih := ih (fun s hs => kept s (List.mem_cons_of_mem _ hs))
    simp only [select,modify,List.map_cons,List.find?_cons] at *
    by_cases same : key r = k
    · have := kept r List.mem_cons_self same
      simp [same,this,other.symm,ih]
    · simp [same,ih]

/-- `INSERT .. ON CONFLICT(key) DO UPDATE`. -/
def upsert (key : α → κ) (row : α) (set : α → α) (rows : List α) : List α :=
  match select key (key row) rows with
  | some _ => modify key (key row) set rows
  | none => rows ++ [row]

/-- The row found under the key is the one inserted, or the old one updated. -/
theorem select_upsert_self {row : α} {set : α → α} {rows : List α} {k : κ} (own : key row = k)
    (kept : ∀ r, key r = k → key (set r) = k) :
    select key k (upsert key row set rows) = some ((select key k rows).elim row set) := by
  subst own
  unfold upsert
  split
  · rename_i old found
    rw [select_modify_self kept,found]
    rfl
  · rename_i found
    rw [found]
    exact select_append_new (select_none_iff.mp found)

theorem select_upsert_other {row : α} {set : α → α} {rows : List α} {k l : κ} (own : key row = k)
    (kept : ∀ r, key r = k → key (set r) = k) (other : l ≠ k) :
    select key l (upsert key row set rows) = select key l rows := by
  subst own
  unfold upsert
  split
  · exact select_modify_other (fun r _ => kept r) other
  · exact select_append_of_ne other.symm

theorem mem_keys_upsert {row : α} {set : α → α} {rows : List α} {k : κ} (kept : ∀ r, key r = key row → key (set r) = key row) :
    k ∈ (upsert key row set rows).map key ↔ k = key row ∨ k ∈ rows.map key := by
  unfold upsert
  split
  · rename_i old found
    have same : (modify key (key row) set rows).map key = rows.map key :=
      map_modify (fun r _ own => (kept r own).trans own.symm)
    have inside : key row ∈ rows.map key := key_of_select found ▸ List.mem_map_of_mem (mem_of_select found)
    rw [same]
    refine ⟨.inr, ?_⟩
    rintro (rfl | member)
    · exact inside
    · exact member
  · rw [List.map_append,List.mem_append,or_comm]
    simp

end

/-- An entry of a map with one more key is the new one or was there. -/
theorem lookup_insert_cases {κ β : Type} [DecidableEq κ] {map : AList (fun _ : κ => β)} {key id : κ} {value found : β}
    (there : (map.insert key value).lookup id = some found) :
    (id = key ∧ found = value) ∨ (id ≠ key ∧ map.lookup id = some found) := by
  by_cases same : id = key
  · subst same
    rw [AList.lookup_insert] at there
    exact .inl ⟨rfl, (Option.some.inj there).symm⟩
  · rw [AList.lookup_insert_ne same] at there
    exact .inr ⟨same, there⟩

end Zaion.Lib.Table
