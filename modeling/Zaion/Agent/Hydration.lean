import Zaion.Agent.Todo
import Zaion.Lib.Table
import Zaion.Sample

/-! What a session finds when it rebuilds its todo list from the last answer it got. -/
namespace Zaion.Agent

open Lib

/-! Normal items stay as they are. -/

theorem nonEmptyTrimmedOwned_eq_some {value text : String} (h : nonEmptyTrimmedOwned value = some text) :
    nonEmptyTrimmedOwned text = some text := by
  unfold nonEmptyTrimmedOwned at *
  split at h
  · cases h
  · rename_i full
    cases h
    rw [trim_trim,if_neg full]

@[simp] theorem bind_nonEmptyTrimmedOwned (notes : Option String) :
    (notes.bind nonEmptyTrimmedOwned).bind nonEmptyTrimmedOwned = notes.bind nonEmptyTrimmedOwned := by
  cases kept : notes.bind nonEmptyTrimmedOwned with
  | none => rfl
  | some text =>
    obtain ⟨_, _, trimmed⟩ := Option.bind_eq_some_iff.mp kept
    rw [Option.bind_some]
    exact nonEmptyTrimmedOwned_eq_some trimmed

theorem cleanOr_cleanOr {fallback : String} (clean : nonEmptyTrimmedOwned fallback = some fallback) (value : String) :
    cleanOr (cleanOr value fallback) fallback = cleanOr value fallback := by
  unfold cleanOr
  cases kept : nonEmptyTrimmedOwned value with
  | none => simp [clean]
  | some text => simp [nonEmptyTrimmedOwned_eq_some kept]

@[simp] theorem TodoItem.normalize_normalize (item : TodoItem) : item.normalize.normalize = item.normalize := by
  simp [normalize,cleanOr_cleanOr (by decide : nonEmptyTrimmedOwned "?" = some "?"),
    cleanOr_cleanOr (by decide : nonEmptyTrimmedOwned "(no title)" = some "(no title)")]

theorem cleanOr_of_some {value text fallback : String} (h : nonEmptyTrimmedOwned value = some text) :
    cleanOr value fallback = text := by
  simp [cleanOr,h]

theorem TodoItem.normalize_eq_iff {item : TodoItem} : item.normalize = item ↔
    cleanOr item.id "?" = item.id ∧ cleanOr item.title "(no title)" = item.title ∧
      item.notes.bind nonEmptyTrimmedOwned = item.notes := by
  cases item
  simp [normalize]

theorem TodoItem.updated_normalize {item : TodoItem} (normal : item.normalize = item) (update : TodoUpdate) :
    (item.updated update).normalize = item.updated update := by
  obtain ⟨id, title, notes⟩ := normalize_eq_iff.mp normal
  refine normalize_eq_iff.mpr ⟨id, ?_, ?_⟩
  · cases given : update.title.bind nonEmptyTrimmedOwned with
    | none => simpa [updated,given] using title
    | some text =>
      obtain ⟨_, _, trimmed⟩ := Option.bind_eq_some_iff.mp given
      simpa [updated,given] using cleanOr_of_some (nonEmptyTrimmedOwned_eq_some trimmed)
  · cases given : update.notes with
    | none => simpa [updated,given] using notes
    | some text => simpa [updated,given] using bind_nonEmptyTrimmedOwned (some text)

@[simp] theorem TodoItem.updated_id (item : TodoItem) (update : TodoUpdate) : (item.updated update).id = item.id := rfl

/-! Deduplication. -/

/-- `dedupe_keep_last_position` from a list already built. -/
def dedupeInto (deduped items : List TodoItem) : List TodoItem :=
  items.foldl (fun deduped item => deduped.eraseP (fun existing => decide (existing.id = item.id)) ++ [item]) deduped

theorem dedupeInto_distinct {deduped items : List TodoItem} (distinct : Table.Keyed TodoItem.id (deduped ++ items)) :
    dedupeInto deduped items = deduped ++ items := by
  induction items generalizing deduped with
  | nil => simp [dedupeInto]
  | cons item items ih =>
    have tail : Table.Keyed TodoItem.id ((deduped ++ [item]) ++ items) := by
      rwa [List.append_assoc,List.singleton_append]
    have fresh : ∀ existing ∈ deduped, existing.id ≠ item.id := by
      apply Table.Keyed.of_append
      exact List.Nodup.of_append_left (by simpa [Table.Keyed] using tail)
    have untouched : deduped.eraseP (fun existing => decide (existing.id = item.id)) = deduped := by
      apply List.eraseP_of_forall_not
      simpa using fresh
    rw [dedupeInto,List.foldl_cons,untouched]
    exact (ih tail).trans (by rw [List.append_assoc,List.singleton_append])

theorem eraseP_id {items : List TodoItem} (distinct : Table.Keyed TodoItem.id items) (id : String) :
    ∀ item ∈ items.eraseP (fun existing => decide (existing.id = id)), item.id ≠ id := by
  intro item kept same
  have member : item ∈ items := List.mem_of_mem_eraseP kept
  obtain ⟨first, before, after, none, found, split, erased⟩ :=
    List.exists_of_eraseP (p := fun existing => decide (existing.id = id)) member (decide_eq_true same)
  rw [erased,List.mem_append] at kept
  rcases kept with early | late
  · exact none item early (by simpa using same)
  · rw [split,Table.Keyed,List.map_append,List.map_cons] at distinct
    apply (List.nodup_cons.mp distinct.of_append_right).1
    rw [of_decide_eq_true found,← same]
    exact List.mem_map_of_mem late

theorem dedupeInto_keyed {deduped items : List TodoItem} (distinct : Table.Keyed TodoItem.id deduped) :
    Table.Keyed TodoItem.id (dedupeInto deduped items) := by
  induction items generalizing deduped with
  | nil => exact distinct
  | cons item items ih =>
    apply ih
    apply Table.Keyed.append
    · exact List.Nodup.sublist (List.Sublist.map _ List.eraseP_sublist) distinct
    · exact eraseP_id distinct item.id

theorem mem_dedupeInto {deduped items : List TodoItem} {item : TodoItem} (member : item ∈ dedupeInto deduped items) :
    item ∈ deduped ∨ item ∈ items := by
  induction items generalizing deduped with
  | nil => exact Or.inl member
  | cons next items ih =>
    rcases ih member with old | new
    · rcases List.mem_append.mp old with kept | last
      · exact Or.inl (List.mem_of_mem_eraseP kept)
      · exact Or.inr (List.mem_cons.mpr (Or.inl (List.mem_singleton.mp last)))
    · exact Or.inr (List.mem_cons_of_mem _ new)

namespace TodoStore

/-- What every request keeps: items in normal form, no id twice. -/
structure Tidy (store : TodoStore) : Prop where
  normal : ∀ item ∈ store.items, item.normalize = item
  distinct : Table.Keyed TodoItem.id store.items

theorem new_tidy : new.Tidy := ⟨by simp [new], by simp [new,Table.Keyed]⟩

/-- Loading a tidy list changes nothing. -/
theorem replace_tidy {items : List TodoItem} (tidy : (⟨items⟩ : TodoStore).Tidy) : replace items = ⟨items⟩ := by
  have normal : items.map TodoItem.normalize = items := by
    conv_rhs => rw [← List.map_id items]
    exact List.map_congr_left tidy.normal
  have kept : dedupeInto [] items = [] ++ items := dedupeInto_distinct tidy.distinct
  rw [replace,normal]
  exact congrArg TodoStore.mk kept

theorem tidy_replace (todos : List TodoItem) : (replace todos).Tidy where
  normal item member := by
    have member : item ∈ dedupeInto [] (todos.map TodoItem.normalize) := member
    rcases mem_dedupeInto member with absent | normalized
    · simp at absent
    · obtain ⟨given, _, rfl⟩ := List.mem_map.mp normalized
      exact given.normalize_normalize
  distinct := by
    have empty : Table.Keyed TodoItem.id [] := by simp [Table.Keyed]
    exact dedupeInto_keyed empty

theorem Tidy.sublist {store : TodoStore} (tidy : store.Tidy) {items : List TodoItem} (part : items.Sublist store.items) :
    (⟨items⟩ : TodoStore).Tidy where
  normal item member := tidy.normal item (part.subset member)
  distinct := List.Nodup.sublist (part.map _) tidy.distinct

theorem Tidy.add {store : TodoStore} (tidy : store.Tidy) (item : TodoItem) : (store.add item).Tidy := by
  simp only [TodoStore.add]
  cases found : store.items.findIdx? (fun existing => decide (existing.id = item.normalize.id)) with
  | none =>
    have fresh : ∀ existing ∈ store.items, existing.id ≠ item.normalize.id := by
      simpa using List.findIdx?_eq_none_iff.mp found
    constructor
    · intro other member
      rcases List.mem_append.mp member with old | new
      · exact tidy.normal other old
      · rw [List.mem_singleton.mp new,TodoItem.normalize_normalize]
    · exact tidy.distinct.append fresh
  | some i =>
    obtain ⟨inside, same, _⟩ := List.findIdx?_eq_some_iff_getElem.mp found
    constructor
    · intro other member
      rcases List.mem_or_eq_of_mem_set member with old | rfl
      · exact tidy.normal other old
      · exact item.normalize_normalize
    · have ids : (store.items.set i item.normalize).map TodoItem.id = store.items.map TodoItem.id := by
        rw [List.map_set,← of_decide_eq_true same]
        apply List.ext_getElem
        · simp
        · intro j _ _
          rw [List.getElem_set]
          split
          · rename_i here
            simp [here]
          · rfl
      exact (congrArg List.Nodup ids).mpr tidy.distinct

theorem Tidy.update {store : TodoStore} (tidy : store.Tidy) (id : String) (update : TodoUpdate) :
    (store.update id update).1.Tidy := by
  unfold TodoStore.update
  cases store.items.findIdx? (fun item => decide (item.id = id)) with
  | none => exact tidy
  | some i =>
    constructor
    · intro other member
      obtain ⟨j, inside, rfl⟩ := List.getElem_of_mem member
      rw [List.getElem_modify]
      split
      · exact TodoItem.updated_normalize (tidy.normal _ (List.getElem_mem _)) update
      · exact tidy.normal _ (List.getElem_mem _)
    · have ids : (store.items.modify i (fun item => item.updated update)).map TodoItem.id =
          store.items.map TodoItem.id := by
        apply List.ext_getElem
        · simp
        · intro j _ _
          rw [List.getElem_map,List.getElem_map,List.getElem_modify]
          split <;> simp
      exact (congrArg List.Nodup ids).mpr tidy.distinct

/-- A request that fails leaves the list alone. -/
theorem handleRequest_error {store : TodoStore} {request : TodoToolRequest} {error : String}
    (failed : (store.handleRequest request).2 = .error error) : (store.handleRequest request).1 = store := by
  have unchanged (id : String) (update : TodoUpdate) (refused : ((store.update id update).2.map
      (fun _ => (store.update id update).1.response)) = .error error) : (store.update id update).1 = store := by
    unfold TodoStore.update at *
    cases found : store.items.findIdx? (fun item => decide (item.id = id)) with
    | none => rfl
    | some i => simp [found,Except.map] at refused
  cases request with
  | add | list | replace => simp [handleRequest] at failed
  | update id update => exact unchanged id update failed
  | complete id notes => exact unchanged id _ failed
  | remove id =>
    simp only [handleRequest,remove] at failed ⊢
    split at failed
    · rename_i same
      exact congrArg TodoStore.mk (List.filter_sublist.eq_of_length same)
    · simp [Except.map] at failed

theorem Tidy.handleRequest {store : TodoStore} (tidy : store.Tidy) (request : TodoToolRequest) :
    (store.handleRequest request).1.Tidy := by
  cases request with
  | add id title priority notes => exact tidy.add _
  | update id update => exact tidy.update id update
  | complete id notes => exact tidy.update id _
  | remove id => exact tidy.sublist List.filter_sublist
  | list status activeOnly => exact tidy
  | replace todos => exact tidy_replace todos

end TodoStore

/-- The items a request answers with. -/
def TodoToolRequest.shown (request : TodoToolRequest) (store : TodoStore) : List TodoItem :=
  match request with
  | .list status activeOnly => store.listFiltered status activeOnly
  | _ => store.items

theorem TodoToolRequest.shown_sublist (request : TodoToolRequest) (store : TodoStore) :
    (request.shown store).Sublist store.items := by
  cases request with
  | list status activeOnly => exact List.filter_sublist
  | _ => exact List.Sublist.refl _

theorem TodoStore.handleRequest_ok {store : TodoStore} {request : TodoToolRequest} {response : TodoToolResponse}
    (answered : (store.handleRequest request).2 = .ok response) :
    response = ⟨request.shown (store.handleRequest request).1, (store.handleRequest request).1.summary⟩ := by
  have full (done : Except String Unit) (after : TodoStore)
      (answer : done.map (fun _ => after.response) = .ok response) : response = ⟨after.items, after.summary⟩ := by
    cases done <;> simp [Except.map,TodoStore.response] at answer
    exact answer.symm
  cases request with
  | add | list | replace =>
    simp only [handleRequest,TodoStore.response,Except.ok.injEq] at answered
    exact answered.symm
  | update | complete | remove => exact full _ _ answered

/-! Items survive the JSON of a response. -/

theorem TodoItem.ofFields_texts (item : TodoItem) :
    ofFields? (some (.str item.id)) (some (.str item.title)) (some (.str item.status.asStr))
      (some (.str item.priority.asStr)) (item.notes.map Json.str) = some item := by
  rcases item with ⟨_, _, status, priority, notes⟩
  cases status <;> cases priority <;> cases notes <;> rfl

theorem TodoItem.ofJson_toJson (item : TodoItem) : ofJson? item.toJson = some item := by
  rcases item with ⟨id, title, status, priority, notes⟩
  cases notes with
  | none =>
    refine Eq.trans ?_ (ofFields_texts ⟨id, title, status, priority, none⟩)
    simp [ofJson?,toJson,titleField,Json.lookup]
  | some text =>
    refine Eq.trans ?_ (ofFields_texts ⟨id, title, status, priority, some text⟩)
    simp [ofJson?,toJson,titleField,Json.lookup]

theorem TodoItem.toJson_exact (item : TodoItem) : item.toJson.exact = true := by
  cases kept : item.notes <;> simp [toJson,kept,Json.exact,Json.exactFields]

theorem TodoItem.toJson_depth (item : TodoItem) : item.toJson.depth ≤ 1 := by
  cases kept : item.notes <;> simp [toJson,kept,Json.depth,Json.depthFields]

theorem usize_lt (n : Nat) : usize n < 18446744073709551616 := Nat.mod_lt _ (by decide)

theorem response_plain (items : List TodoItem) (store : TodoStore) :
    (TodoToolResponse.toJson ⟨items, store.summary⟩).plain = true := by
  have exact : Json.exactItems (items.map TodoItem.toJson) = true := by
    rw [Json.exactItems_iff]
    intro v member
    obtain ⟨item, _, rfl⟩ := List.mem_map.mp member
    exact item.toJson_exact
  have depth : Json.depthItems (items.map TodoItem.toJson) ≤ 1 := by
    rw [Json.depthItems_le_iff]
    intro v member
    obtain ⟨item, _, rfl⟩ := List.mem_map.mp member
    exact item.toJson_depth
  simp only [Json.plain,TodoToolResponse.toJson,Bool.and_eq_true]
  constructor
  · simp [Json.exact,Json.exactFields,exact,TodoSummary.toJson,Json.nat,TodoStore.summary,TodoStore.countOf,usize_lt]
  · simp [Json.depth,Json.depthFields,TodoSummary.toJson,Json.nat]
    omega

theorem mapM_ofJson_toJson (items : List TodoItem) :
    (items.map TodoItem.toJson).mapM TodoItem.ofJson? = some items := by
  induction items with
  | nil => rfl
  | cons item items ih =>
    rw [List.map_cons,List.mapM_cons,item.ofJson_toJson,ih]
    rfl

/-- A response gives back the items it shows, whatever the store held before. -/
theorem hydrate_response {host : Host} (reads : host.ReadsBack) {store : TodoStore} (tidy : store.Tidy)
    (fresh : TodoStore) (request : TodoToolRequest) :
    fresh.hydrateFromToolResponseJson host
        (host.toText (TodoToolResponse.toJson ⟨request.shown store, store.summary⟩)) =
      (⟨request.shown store⟩, .ok true) := by
  have todos : ((TodoToolResponse.toJson ⟨request.shown store, store.summary⟩).get "todos").bind Json.asArray =
      some ((request.shown store).map TodoItem.toJson) := rfl
  have loaded := TodoStore.replace_tidy (tidy.sublist (request.shown_sublist store))
  simp only [TodoStore.hydrateFromToolResponseJson,reads _ (response_plain _ store),todos,mapM_ofJson_toJson,loaded]

/-- A session: its list, and the last request that succeeded with the answer it got. -/
structure TodoSession where
  store : TodoStore
  last : Option (TodoToolRequest × TodoToolResponse)
  deriving DecidableEq

def TodoSession.handle (session : TodoSession) (request : TodoToolRequest) : TodoSession :=
  match session.store.handleRequest request with
  | (store, .ok response) => ⟨store, some (request, response)⟩
  | (store, .error _) => ⟨store, session.last⟩

def TodoSession.run (requests : List TodoToolRequest) : TodoSession :=
  requests.foldl TodoSession.handle ⟨TodoStore.new, none⟩

/-- The last answer shows the list the session still has. -/
structure TodoSession.Current (session : TodoSession) : Prop where
  tidy : session.store.Tidy
  answer : ∀ request response, session.last = some (request, response) →
    response = ⟨request.shown session.store, session.store.summary⟩

theorem TodoSession.Current.handle {session : TodoSession} (current : session.Current) (request : TodoToolRequest) :
    (session.handle request).Current := by
  have tidy := current.tidy.handleRequest request
  unfold TodoSession.handle
  cases outcome : session.store.handleRequest request with
  | mk store answer =>
    rw [outcome] at tidy
    cases answer with
    | ok response =>
      refine ⟨tidy, ?_⟩
      rintro _ _ ⟨⟩
      have shown := TodoStore.handleRequest_ok (congrArg Prod.snd outcome)
      rwa [outcome] at shown
    | error error =>
      have same : store = session.store := by
        simpa [outcome] using TodoStore.handleRequest_error (congrArg Prod.snd outcome)
      rw [same]
      exact current

theorem TodoSession.run_current (requests : List TodoToolRequest) : (run requests).Current := by
  suffices ∀ session : TodoSession, session.Current → (requests.foldl TodoSession.handle session).Current by
    exact this _ ⟨TodoStore.new_tidy, by simp⟩
  induction requests with
  | nil => exact fun _ current => current
  | cons request requests ih => exact fun session current => ih _ (current.handle request)

end Zaion.Agent
