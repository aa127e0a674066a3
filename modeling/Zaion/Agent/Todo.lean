import Zaion.Host
import Zaion.Lib.Text

/-! The session todo list, its tool requests and its rehydration from the text of an
earlier response. A request hands back the list it leaves together with its answer. -/
namespace Zaion.Agent

open Lib

inductive TodoStatus where
  | pending
  | inProgress
  | completed
  | cancelled
  deriving DecidableEq, Repr

def TodoStatus.isActive : TodoStatus → Bool
  | .pending | .inProgress => true
  | .completed | .cancelled => false

def TodoStatus.asStr : TodoStatus → String
  | .pending => "pending"
  | .inProgress => "in_progress"
  | .completed => "completed"
  | .cancelled => "cancelled"

inductive TodoPriority where
  | low
  | normal
  | high
  | urgent
  deriving DecidableEq, Repr

def TodoPriority.asStr : TodoPriority → String
  | .low => "low"
  | .normal => "normal"
  | .high => "high"
  | .urgent => "urgent"

structure TodoItem where
  id : String
  title : String
  status : TodoStatus
  priority : TodoPriority
  notes : Option String
  deriving DecidableEq, Repr

/-- `non_empty_trimmed_owned`. -/
def nonEmptyTrimmedOwned (value : String) : Option String :=
  if trim value = "" then none else some (trim value)

/-- `clean_or`. -/
def cleanOr (value fallback : String) : String := (nonEmptyTrimmedOwned value).getD fallback

namespace TodoItem

/-- `TodoItem::new`. -/
def new (id title : String) : TodoItem := ⟨id, title, .pending, .normal, none⟩

def normalize (item : TodoItem) : TodoItem :=
  { item with
    id := cleanOr item.id "?"
    title := cleanOr item.title "(no title)"
    notes := item.notes.bind nonEmptyTrimmedOwned }

end TodoItem

structure TodoUpdate where
  title : Option String
  status : Option TodoStatus
  priority : Option TodoPriority
  notes : Option String
  deriving DecidableEq, Repr

structure TodoSummary where
  total : Nat
  pending : Nat
  inProgress : Nat
  completed : Nat
  cancelled : Nat
  deriving DecidableEq, Repr

structure TodoToolResponse where
  todos : List TodoItem
  summary : TodoSummary
  deriving DecidableEq, Repr

inductive TodoToolRequest where
  | add (id title : String) (priority : TodoPriority) (notes : Option String)
  | update (id : String) (update : TodoUpdate)
  | complete (id : String) (notes : Option String)
  | remove (id : String)
  | list (status : Option TodoStatus) (activeOnly : Bool)
  | replace (todos : List TodoItem)
  deriving DecidableEq, Repr

@[ext] structure TodoStore where
  items : List TodoItem
  deriving DecidableEq, Repr

/-- `dedupe_keep_last_position`: a later item drops the earlier one of its id. -/
def dedupeKeepLastPosition (items : List TodoItem) : List TodoItem :=
  items.foldl (fun deduped item => deduped.eraseP (fun existing => decide (existing.id = item.id)) ++ [item]) []

/-- What a `usize` holds. -/
def usize (n : Nat) : Nat := n % 18446744073709551616

def todoNotFound (id : String) : String := "todo '" ++ id ++ "' not found"

/-- The item after the fields an update carries. -/
def TodoItem.updated (item : TodoItem) (update : TodoUpdate) : TodoItem :=
  { item with
    title := (update.title.bind nonEmptyTrimmedOwned).getD item.title
    status := update.status.getD item.status
    priority := update.priority.getD item.priority
    notes := match update.notes with
      | some notes => nonEmptyTrimmedOwned notes
      | none => item.notes }

namespace TodoStore

def new : TodoStore := ⟨[]⟩

def replace (todos : List TodoItem) : TodoStore := ⟨dedupeKeepLastPosition (todos.map TodoItem.normalize)⟩

def add (store : TodoStore) (item : TodoItem) : TodoStore :=
  let item := item.normalize
  match store.items.findIdx? (fun existing => decide (existing.id = item.id)) with
  | some i => ⟨store.items.set i item⟩
  | none => ⟨store.items ++ [item]⟩

def update (store : TodoStore) (id : String) (update : TodoUpdate) : TodoStore × Except String Unit :=
  match store.items.findIdx? (fun item => decide (item.id = id)) with
  | some i => (⟨store.items.modify i (fun item => item.updated update)⟩, .ok ())
  | none => (store, .error (todoNotFound id))

def complete (store : TodoStore) (id : String) (notes : Option String) : TodoStore × Except String Unit :=
  store.update id ⟨none, some .completed, none, notes⟩

def remove (store : TodoStore) (id : String) : TodoStore × Except String Unit :=
  let kept := store.items.filter (fun item => decide (item.id ≠ id))
  (⟨kept⟩, if kept.length = store.items.length then .error (todoNotFound id) else .ok ())

/-- What the two filters of a list request let through. -/
def shows (status : Option TodoStatus) (activeOnly : Bool) (item : TodoItem) : Bool :=
  (match status with
    | some status => decide (item.status = status)
    | none => true) && (!activeOnly || item.status.isActive)

def listFiltered (store : TodoStore) (status : Option TodoStatus) (activeOnly : Bool) : List TodoItem :=
  store.items.filter (shows status activeOnly)

def countOf (store : TodoStore) (status : TodoStatus) : Nat :=
  usize (store.items.filter (fun item => decide (item.status = status))).length

def summary (store : TodoStore) : TodoSummary where
  total := usize store.items.length
  pending := store.countOf .pending
  inProgress := store.countOf .inProgress
  completed := store.countOf .completed
  cancelled := store.countOf .cancelled

def response (store : TodoStore) : TodoToolResponse := ⟨store.items, store.summary⟩

def handleRequest (store : TodoStore) : TodoToolRequest → TodoStore × Except String TodoToolResponse
  | .add id title priority notes =>
    let store := store.add { TodoItem.new id title with priority := priority, notes := notes }
    (store, .ok store.response)
  | .update id update =>
    let (store, done) := store.update id update
    (store, done.map (fun _ => store.response))
  | .complete id notes =>
    let (store, done) := store.complete id notes
    (store, done.map (fun _ => store.response))
  | .remove id =>
    let (store, done) := store.remove id
    (store, done.map (fun _ => store.response))
  | .list status activeOnly => (store, .ok ⟨store.listFiltered status activeOnly, store.summary⟩)
  | .replace todos =>
    let store := TodoStore.replace todos
    (store, .ok store.response)

end TodoStore

/-! The JSON of a response, and items read from JSON. -/

def TodoItem.toJson (item : TodoItem) : Json := .obj ([
  ("id", .str item.id),
  ("title", .str item.title),
  ("status", .str item.status.asStr),
  ("priority", .str item.priority.asStr)] ++
  (match item.notes with
    | some notes => [("notes", .str notes)]
    | none => []))

def TodoSummary.toJson (s : TodoSummary) : Json := .obj [
  ("total", .nat s.total),
  ("pending", .nat s.pending),
  ("in_progress", .nat s.inProgress),
  ("completed", .nat s.completed),
  ("cancelled", .nat s.cancelled)]

def TodoToolResponse.toJson (r : TodoToolResponse) : Json := .obj [
  ("todos", .arr (r.todos.map TodoItem.toJson)),
  ("summary", r.summary.toJson)]

/-- The variant a unit enum value names: its text, or an object with that one key. -/
def unitVariant : Json → Option String
  | .str name => some name
  | .obj [(name, .null)] => some name
  | _ => none

def TodoStatus.ofJson? (v : Json) : Option TodoStatus :=
  match unitVariant v with
  | some "pending" => some .pending
  | some "in_progress" => some .inProgress
  | some "completed" => some .completed
  | some "cancelled" => some .cancelled
  | _ => none

def TodoPriority.ofJson? (v : Json) : Option TodoPriority :=
  match unitVariant v with
  | some "low" => some .low
  | some "normal" => some .normal
  | some "high" => some .high
  | some "urgent" => some .urgent
  | _ => none

/-- A field under `#[serde(default)]`. -/
def orDefault (read : Json → Option α) (fallback : α) : Option Json → Option α
  | some v => read v
  | none => some fallback

def optionalText : Json → Option (Option String)
  | .null => some none
  | .str text => some (some text)
  | _ => none

/-- `title` under its own name or the alias `content`; both at once are a duplicate field. -/
def titleField (fields : List (String × Json)) : Option Json :=
  match Json.lookup "title" fields, Json.lookup "content" fields with
  | some title, none => some title
  | none, some content => some content
  | _, _ => none

def TodoItem.ofFields? (id title status priority notes : Option Json) : Option TodoItem := do
  some {
    id := ← id.bind Json.asStr
    title := ← title.bind Json.asStr
    status := ← orDefault TodoStatus.ofJson? .pending status
    priority := ← orDefault TodoPriority.ofJson? .normal priority
    notes := ← orDefault optionalText none notes }

/-- A struct is read from its named fields or from their values in order. -/
def TodoItem.ofJson? : Json → Option TodoItem
  | .obj fields => ofFields? (Json.lookup "id" fields) (titleField fields) (Json.lookup "status" fields)
      (Json.lookup "priority" fields) (Json.lookup "notes" fields)
  | .arr items => if items.length ≤ 5 then ofFields? items[0]? items[1]? items[2]? items[3]? items[4]? else none
  | _ => none

inductive HydrateError where
  | notJson
  | notItems
  deriving DecidableEq, Repr

/-- `hydrate_from_tool_response_json`. -/
def TodoStore.hydrateFromToolResponseJson (host : Host) (store : TodoStore) (content : String) :
    TodoStore × Except HydrateError Bool :=
  match host.ofText content with
  | none => (store, .error .notJson)
  | some value =>
    match (value.get "todos").bind Json.asArray with
    | none => (store, .ok false)
    | some todos =>
      match todos.mapM TodoItem.ofJson? with
      | none => (store, .error .notItems)
      | some items => (TodoStore.replace items, .ok true)

end Zaion.Agent
