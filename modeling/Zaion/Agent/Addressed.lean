import Mathlib.Data.Set.Function
import Mathlib.Logic.Function.Basic
import Zaion.Agent.Hydration

/-! Items found again under the id they were given. The store keeps ids in normal form,
while `update`, `complete` and `remove` look for the id as it is written. -/
namespace Zaion.Agent

open Lib

/-- What is kept of an item, under the id it came with. -/
def TodoItem.kept (item : TodoItem) : TodoItem := { item.normalize with id := item.id }

/-- The items meant by the requests so far: one place for each id, as written. -/
abbrev Meant := String → Option TodoItem

def Meant.next (meant : Meant) : TodoToolRequest → Meant
  | .add id title priority notes => Function.update meant id
      (some { TodoItem.new id title with priority := priority, notes := notes }.kept)
  | .update id update => Function.update meant id ((meant id).map (fun item => item.updated update))
  | .complete id notes => Function.update meant id
      ((meant id).map (fun item => item.updated ⟨none, some .completed, none, notes⟩))
  | .remove id => Function.update meant id none
  | .list _ _ => meant
  | .replace todos => fun id => (Table.select TodoItem.id id todos.reverse).map TodoItem.kept

def Meant.after (requests : List TodoToolRequest) : Meant := requests.foldl Meant.next (fun _ => none)

def TodoStore.run (requests : List TodoToolRequest) : TodoStore :=
  requests.foldl (fun store request => (store.handleRequest request).1) TodoStore.new

/-- The three calls with an id act on the item at one place, and on nothing else. -/
structure TodoStore.At (store : TodoStore) (id : String) (place : Nat) (item : TodoItem) : Prop where
  stored : store.items[place]? = some item
  update : ∀ update, store.update id update = (⟨store.items.set place (item.updated update)⟩, .ok ())
  complete : ∀ notes, store.complete id notes =
    (⟨store.items.set place (item.updated ⟨none, some .completed, none, notes⟩)⟩, .ok ())
  remove : store.remove id = (⟨store.items.eraseIdx place⟩, .ok ())

/-- Where an id is looked for. -/
def TodoStore.placeOf (store : TodoStore) (id : String) : Nat :=
  store.items.findIdx (fun item => decide (item.id = id))

/-- Ids are distinct and not blank, and each item meant has a place of its own, where it
is found under the id it was given. -/
structure Addressable (meant : Meant) (store : TodoStore) : Prop where
  distinct : Table.Keyed TodoItem.id store.items
  visible : ∀ item ∈ store.items, trim item.id ≠ ""
  found : ∃ place : String → Nat, Set.InjOn place { id | (meant id).isSome } ∧
    ∀ id item, meant id = some item →
      ∃ stored, store.At id (place id) stored ∧ { stored with id := id } = item

/-- The ids a request puts into the store. -/
def TodoToolRequest.puts : TodoToolRequest → List String
  | .add id _ _ _ => [id]
  | .replace todos => todos.map TodoItem.id
  | _ => []

/-- An id in the form the store keeps. -/
def Normal (id : String) : Prop := trim id = id ∧ id ≠ ""

theorem Normal.cleanOr {id : String} (normal : Normal id) (fallback : String) : cleanOr id fallback = id := by
  apply cleanOr_of_some
  simp [nonEmptyTrimmedOwned,normal.1,normal.2]

theorem TodoItem.normalize_of_normal {item : TodoItem} (normal : Normal item.id) : item.normalize = item.kept := by
  simp [kept,normalize,normal.cleanOr]

theorem normal_of_clean {item : TodoItem} (clean : item.normalize = item) : Normal item.id := by
  have id := (TodoItem.normalize_eq_iff.mp clean).1
  unfold cleanOr nonEmptyTrimmedOwned at id
  split at id
  · have written : "?" = item.id := id
    rw [← written]
    exact ⟨by decide, by decide⟩
  · rename_i full
    have trimmed : trim item.id = item.id := id
    exact ⟨trimmed, trimmed ▸ full⟩

/-! The store's calls as table operations. -/

section

variable {store : TodoStore} {id : String}

theorem TodoStore.placeOf_of_select {item : TodoItem} (distinct : Table.Keyed TodoItem.id store.items)
    (found : Table.select TodoItem.id id store.items = some item) :
    store.items[store.placeOf id]? = some item ∧
      store.items.findIdx? (fun item => decide (item.id = id)) = some (store.placeOf id) := by
  have own := Table.key_of_select found
  have inside : store.placeOf id < store.items.length :=
    List.findIdx_lt_length_of_exists ⟨item, Table.mem_of_select found, by simp [own]⟩
  have same : store.items[store.placeOf id].id = id :=
    of_decide_eq_true (@List.findIdx_getElem TodoItem (fun item => decide (item.id = id)) store.items inside)
  have there : store.items[store.placeOf id] = item :=
    distinct.eq_of_key (List.getElem_mem _) (Table.mem_of_select found) (same.trans own.symm)
  exact ⟨there ▸ List.getElem?_eq_getElem inside, List.findIdx?_eq_some_of_exists
    ⟨item, Table.mem_of_select found, by simp [own]⟩⟩

theorem modify_at {items : List TodoItem} {place : Nat} {item : TodoItem} (there : items[place]? = some item)
    (change : TodoItem → TodoItem) : items.modify place change = items.set place (change item) := by
  obtain ⟨inside, rfl⟩ := List.getElem?_eq_some_iff.mp there
  apply List.ext_getElem
  · simp
  · intro i _ _
    rw [List.getElem_modify,List.getElem_set]
    split
    · next same => subst same; rfl
    · rfl

theorem TodoStore.findIdx_of_select_none (missing : Table.select TodoItem.id id store.items = none) :
    store.items.findIdx? (fun item => decide (item.id = id)) = none := by
  rw [List.findIdx?_eq_none_iff]
  simpa using Table.select_none_iff.mp missing

theorem TodoStore.add_eq_upsert (distinct : Table.Keyed TodoItem.id store.items) (item : TodoItem) :
    (store.add item).items = Table.upsert TodoItem.id item.normalize (fun _ => item.normalize) store.items := by
  unfold Table.upsert
  cases found : Table.select TodoItem.id item.normalize.id store.items with
  | none => simp [TodoStore.add,TodoStore.findIdx_of_select_none found]
  | some old =>
    obtain ⟨there, search⟩ := TodoStore.placeOf_of_select distinct found
    have inPlace := distinct.modify_eq_set (f := fun _ => item.normalize) there
    rw [Table.key_of_select found] at inPlace
    simp [TodoStore.add,search,inPlace]

theorem TodoStore.update_eq_modify (distinct : Table.Keyed TodoItem.id store.items) (update : TodoUpdate) :
    (store.update id update).1.items = Table.modify TodoItem.id id (fun item => item.updated update) store.items := by
  cases found : Table.select TodoItem.id id store.items with
  | none =>
    have untouched : Table.modify TodoItem.id id (fun item => item.updated update) store.items = store.items := by
      rw [Table.modify]
      refine (List.map_congr_left ?_).trans (List.map_id _)
      intro item member
      exact if_neg (Table.select_none_iff.mp found item member)
    simp [TodoStore.update,TodoStore.findIdx_of_select_none found,untouched]
  | some old =>
    obtain ⟨there, search⟩ := TodoStore.placeOf_of_select distinct found
    have inPlace := distinct.modify_eq_set (f := fun item => item.updated update) there
    rw [Table.key_of_select found] at inPlace
    simp [TodoStore.update,search,inPlace,modify_at there]

/-- An item the table has under an id is the one the three calls act on. -/
theorem TodoStore.at_of_select {item : TodoItem} (distinct : Table.Keyed TodoItem.id store.items)
    (found : Table.select TodoItem.id id store.items = some item) : store.At id (store.placeOf id) item := by
  obtain ⟨there, search⟩ := TodoStore.placeOf_of_select distinct found
  have updated (update : TodoUpdate) :
      store.update id update = (⟨store.items.set (store.placeOf id) (item.updated update)⟩, .ok ()) := by
    simp [TodoStore.update,search,modify_at there]
  refine ⟨there, updated, fun notes => updated _, ?_⟩
  have erased := distinct.filter_ne_eq_eraseIdx there
  rw [Table.key_of_select found] at erased
  have inside := (List.getElem?_eq_some_iff.mp there).1
  simp only [TodoStore.remove,erased,List.length_eraseIdx_of_lt inside]
  rw [if_neg (by omega)]

end

/-! Deduplication keeps the last item of each id. -/

theorem select_dedupeInto {deduped : List TodoItem} (items : List TodoItem) (distinct : Table.Keyed TodoItem.id deduped) (id : String) :
    Table.select TodoItem.id id (dedupeInto deduped items) =
      (Table.select TodoItem.id id items.reverse).or (Table.select TodoItem.id id deduped) := by
  induction items generalizing deduped with
  | nil => rfl
  | cons item items ih =>
    have stays : Table.Keyed TodoItem.id (deduped.eraseP (fun existing => decide (existing.id = item.id)) ++ [item]) :=
      Table.Keyed.append (List.Nodup.sublist (List.Sublist.map _ List.eraseP_sublist) distinct)
        (eraseP_id distinct item.id)
    refine (ih stays).trans ?_
    rw [List.reverse_cons]
    by_cases same : item.id = id
    · subst same
      have last := Table.select_append_new (eraseP_id distinct item.id)
      rw [last]
      simp [Table.select,List.find?_append]
    · have kept : Table.select TodoItem.id id (deduped.eraseP (fun existing => decide (existing.id = item.id)) ++ [item]) =
          Table.select TodoItem.id id deduped := by
        rw [Table.select_append_of_ne same,Table.select_eraseP_other (Ne.symm same)]
      rw [kept,Table.select_append_of_ne same]

/-! A store that stands for the items meant. -/

structure Stands (meant : Meant) (store : TodoStore) : Prop where
  tidy : store.Tidy
  holds : ∀ id, Table.select TodoItem.id id store.items = meant id

theorem Stands.addressable {meant : Meant} {store : TodoStore} (stands : Stands meant store) :
    Addressable meant store where
  distinct := stands.tidy.distinct
  visible item member := by
    obtain ⟨trimmed, full⟩ := normal_of_clean (stands.tidy.normal item member)
    rwa [trimmed]
  found := by
    refine ⟨store.placeOf, ?_, ?_⟩
    · intro first live second alive together
      obtain ⟨item, held⟩ := Option.isSome_iff_exists.mp live
      obtain ⟨other, holds⟩ := Option.isSome_iff_exists.mp alive
      rw [← stands.holds] at held holds
      have here := (TodoStore.placeOf_of_select stands.tidy.distinct held).1
      have there := (TodoStore.placeOf_of_select stands.tidy.distinct holds).1
      rw [together,there] at here
      rw [← Table.key_of_select held,← Table.key_of_select holds,Option.some.inj here]
    · intro id item held
      rw [← stands.holds] at held
      refine ⟨item, TodoStore.at_of_select stands.tidy.distinct held, ?_⟩
      rw [← Table.key_of_select held]

theorem Stands.next {meant : Meant} {store : TodoStore} (stands : Stands meant store) (request : TodoToolRequest)
    (normal : ∀ id ∈ request.puts, Normal id) : Stands (meant.next request) (store.handleRequest request).1 := by
  have tidy := stands.tidy.handleRequest request
  have distinct := stands.tidy.distinct
  have updated (id : String) (update : TodoUpdate) (other : String) :
      Table.select TodoItem.id other (store.update id update).1.items =
        Function.update meant id ((meant id).map (fun item => item.updated update)) other := by
    rw [TodoStore.update_eq_modify distinct]
    by_cases same : other = id
    · subst same
      rw [Function.update_self,← stands.holds]
      exact Table.select_modify_self (fun _ own => own)
    · rw [Function.update_of_ne same,← stands.holds]
      exact Table.select_modify_other (fun _ _ own => own) same
  refine ⟨tidy, ?_⟩
  intro other
  cases request with
  | add id title priority notes =>
    have clean : Normal id := normal id (by simp [TodoToolRequest.puts])
    have kept : { TodoItem.new id title with priority := priority, notes := notes }.normalize =
        { TodoItem.new id title with priority := priority, notes := notes }.kept := TodoItem.normalize_of_normal clean
    simp only [TodoStore.handleRequest,Meant.next,TodoStore.add_eq_upsert distinct,kept]
    by_cases same : other = id
    · subst same
      have own : { TodoItem.new other title with priority := priority, notes := notes }.kept.id = other := rfl
      rw [Function.update_self]
      refine (Table.select_upsert_self own (fun _ _ => own)).trans ?_
      cases Table.select TodoItem.id other store.items <;> rfl
    · have own : { TodoItem.new id title with priority := priority, notes := notes }.kept.id = id := rfl
      rw [Function.update_of_ne same,← stands.holds]
      exact Table.select_upsert_other own (fun _ _ => own) same
  | update id update => exact updated id update other
  | complete id notes => exact updated id _ other
  | remove id =>
    simp only [TodoStore.handleRequest,TodoStore.remove,Meant.next]
    by_cases same : other = id
    · subst same
      rw [Function.update_self,Table.select_filter_self]
    · rw [Function.update_of_ne same,← stands.holds,Table.select_filter_other same]
  | list status activeOnly => exact stands.holds other
  | replace todos =>
    have clean : todos.map TodoItem.normalize = todos.map TodoItem.kept := by
      apply List.map_congr_left
      intro item member
      exact TodoItem.normalize_of_normal (normal item.id (List.mem_map_of_mem member))
    have empty : Table.Keyed TodoItem.id [] := by simp [Table.Keyed]
    have last := select_dedupeInto (todos.map TodoItem.kept) empty other
    simp only [TodoStore.handleRequest,TodoStore.replace,clean,Meant.next]
    refine last.trans ?_
    have kept_id (item : TodoItem) : item.kept.id = item.id := by simp only [TodoItem.kept]
    simp only [Table.select,← List.map_reverse,List.find?_map,Function.comp_def,kept_id,List.find?_nil,Option.or_none]

theorem run_stands {requests : List TodoToolRequest}
    (normal : ∀ request ∈ requests, ∀ id ∈ request.puts, Normal id) :
    Stands (Meant.after requests) (TodoStore.run requests) := by
  suffices ∀ (meant : Meant) (store : TodoStore), Stands meant store → Stands (requests.foldl Meant.next meant)
      (requests.foldl (fun store request => (store.handleRequest request).1) store) by
    exact this _ _ ⟨TodoStore.new_tidy, fun _ => rfl⟩
  induction requests with
  | nil => exact fun _ _ stands => stands
  | cons request requests ih =>
    intro meant store stands
    exact ih (fun later member => normal later (List.mem_cons_of_mem _ member)) _ _
      (stands.next request (normal request List.mem_cons_self))

/-- The one item of a new store is removed under the id it has, which is in normal form. -/
theorem normal_of_addressable {id title : String}
    (addressable : Addressable (Meant.after [.add id title .normal none]) (TodoStore.run [.add id title .normal none])) :
    Normal id := by
  obtain ⟨place, _, found⟩ := addressable.found
  have meant : Meant.after [.add id title .normal none] id = some (TodoItem.new id title).kept := by
    simp [Meant.after,Meant.next,TodoItem.new]
  obtain ⟨stored, here, _⟩ := found id _ meant
  have removed := congrArg Prod.snd here.remove
  have same : (TodoItem.new id title).normalize.id = id := by
    by_contra other
    simp [TodoStore.run,TodoStore.handleRequest,TodoStore.add,TodoStore.new,TodoStore.remove,TodoItem.new] at removed other
    simp [other] at removed
  have normal := normal_of_clean (TodoItem.new id title).normalize_normalize
  rwa [same] at normal

/-- Items stay addressable in every run exactly when the ids put into the store are in normal form. -/
theorem addressable_iff_normal (ids : Set String) :
    (∀ requests : List TodoToolRequest, (∀ request ∈ requests, ∀ id ∈ request.puts, id ∈ ids) →
      Addressable (Meant.after requests) (TodoStore.run requests)) ↔ ∀ id ∈ ids, Normal id := by
  constructor
  · intro addressable id member
    exact normal_of_addressable (addressable [.add id "" .normal none] (by simpa [TodoToolRequest.puts] using member))
  · intro normal requests inside
    exact (run_stands (fun request member id put => normal id (inside request member id put))).addressable

/-- An item added under an id with a blank is not found under it. -/
theorem spaced_id_lost : (TodoStore.run [.add " a " "write" .normal none]).items =
      [⟨"a", "write", .pending, .normal, none⟩] ∧
    ((TodoStore.run [.add " a " "write" .normal none]).complete " a " none).2 =
      .error "todo ' a ' not found" ∧
    ¬ Addressable (Meant.after [.add " a " "write" .normal none]) (TodoStore.run [.add " a " "write" .normal none]) := by
  refine ⟨by decide, by decide, ?_⟩
  intro addressable
  exact absurd (normal_of_addressable addressable).1 (by decide)

end Zaion.Agent
