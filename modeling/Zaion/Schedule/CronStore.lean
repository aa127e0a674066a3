import Zaion.Lib.Json

/-! The cron store, a file of jobs that every call loads as a whole and saves as a whole. -/
namespace Zaion.Schedule

structure CronJob where
  jobId : String
  name : String
  schedule : String
  command : String
  deliver : Option String
  repeats : Option UInt32
  skills : List String
  script : Option String
  principalId : String
  enabled : Bool
  lastRun : Option String
  nextRun : Option String
  createdAt : String
  deriving DecidableEq, Repr

structure CronStore where
  jobs : List CronJob
  deriving DecidableEq, Repr

/-- The text of a file as a tree, its members all kept, and `to_string_pretty`. -/
structure StoreText where
  read : String → Option Json
  pretty : Json → String

/-- What is written of an exact value reads back. -/
def StoreText.ReadsBack (text : StoreText) : Prop := ∀ v : Json, v.plain = true → text.read (text.pretty v) = some v

def optionalText : Json → Option (Option String)
  | .null => some none
  | .str s => some (some s)
  | _ => none

def optionalU32 : Json → Option (Option UInt32)
  | .null => some none
  | .num (.posInt n) => if n < 4294967296 then some (some (UInt32.ofNat n)) else none
  | _ => none

/-- The members of a derived structure: an object without a member said twice, or all values in their order. -/
def structMembers (names : List String) : Json → Option (List (String × Json))
  | .obj members => if ∀ name ∈ names, (members.map Prod.fst).count name ≤ 1 then some members else none
  | .arr items => if items.length = names.length then some (names.zip items) else none
  | _ => none

namespace CronJob

def memberNames : List String :=
  ["job_id", "name", "schedule", "command", "deliver", "repeat", "skills", "script", "principal_id", "enabled",
    "last_run", "next_run", "created_at"]

def toJson (job : CronJob) : Json :=
  .obj [("job_id", .str job.jobId), ("name", .str job.name), ("schedule", .str job.schedule),
    ("command", .str job.command), ("deliver", .ofOption .str job.deliver),
    ("repeat", .ofOption (fun n => .nat n.toNat) job.repeats), ("skills", .arr (job.skills.map .str)),
    ("script", .ofOption .str job.script), ("principal_id", .str job.principalId), ("enabled", .bool job.enabled),
    ("last_run", .ofOption .str job.lastRun), ("next_run", .ofOption .str job.nextRun),
    ("created_at", .str job.createdAt)]

/-- A missing member that is optional or has a default is null or empty. -/
def ofJson (v : Json) : Option CronJob := do
  let members ← structMembers memberNames v
  let text (name : String) : Option String := (Json.lookup name members).bind Json.asStr
  let optional (name : String) : Option (Option String) := optionalText ((Json.lookup name members).getD .null)
  return {
    jobId := ← text "job_id"
    name := ← text "name"
    schedule := ← text "schedule"
    command := ← text "command"
    deliver := ← optional "deliver"
    repeats := ← optionalU32 ((Json.lookup "repeat" members).getD .null)
    skills := ← ((Json.lookup "skills" members).getD (.arr [])).asArray.bind (fun items => items.mapM Json.asStr)
    script := ← optional "script"
    principalId := ← text "principal_id"
    enabled := ← (Json.lookup "enabled" members).bind Json.asBool
    lastRun := ← optional "last_run"
    nextRun := ← optional "next_run"
    createdAt := ← text "created_at" }

end CronJob

namespace CronStore

def toJson (store : CronStore) : Json := .obj [("jobs", .arr (store.jobs.map CronJob.toJson))]

def ofJson (v : Json) : Option CronStore := do
  let members ← structMembers ["jobs"] v
  let jobs ← (Json.lookup "jobs" members).bind Json.asArray
  return ⟨← jobs.mapM CronJob.ofJson⟩

end CronStore

@[simp] theorem optionalText_ofOption (value : Option String) : optionalText (.ofOption .str value) = some value := by
  cases value <;> rfl

@[simp] theorem optionalU32_ofOption (value : Option UInt32) :
    optionalU32 (.ofOption (fun n => .nat n.toNat) value) = some value := by
  cases value with
  | none => rfl
  | some n => simp [optionalU32,Json.ofOption,Json.nat,n.toNat_lt]

theorem mapM_written {α β : Type} (write : α → β) (read : β → Option α) (inverse : ∀ a, read (write a) = some a)
    (items : List α) : (items.map write).mapM read = some items := by
  induction items with
  | nil => rfl
  | cons a rest ih =>
    rw [List.map_cons,List.mapM_cons,inverse,ih]
    rfl

theorem bind_of {α β : Type} {x : Option α} {a : α} {f : α → Option β} {r : Option β} (read : x = some a)
    (later : f a = r) : x >>= f = r := by
  rw [read]
  exact later

theorem CronJob.ofJson_toJson (job : CronJob) : CronJob.ofJson job.toJson = some job := by
  have members : structMembers memberNames job.toJson = job.toJson.asObject := by
    rw [CronJob.toJson,structMembers,if_pos (by simp [memberNames]),Json.asObject]
  have skills : (job.skills.map Json.str).mapM Json.asStr = some job.skills :=
    mapM_written Json.str Json.asStr (fun _ => rfl) job.skills
  rw [ofJson,members]
  refine bind_of rfl ?_
  -- One step a member, in the order of the structure.
  iterate 13
    refine bind_of (by
      simp only [Json.lookup,String.reduceEq,↓reduceIte,Option.bind_some,Option.getD_some,Json.asStr,Json.asBool,
        Json.asArray,optionalText_ofOption,optionalU32_ofOption,skills]
      rfl) ?_
  rfl

theorem CronStore.ofJson_toJson (store : CronStore) : CronStore.ofJson store.toJson = some store := by
  have jobs := mapM_written _ _ CronJob.ofJson_toJson store.jobs
  simp [-List.mapM_map,ofJson,toJson,structMembers,Json.lookup,Json.asArray,jobs]

theorem CronJob.toJson_exact (job : CronJob) : job.toJson.exact = true ∧ job.toJson.depth ≤ 2 := by
  have skills : Json.exactItems (job.skills.map Json.str) = true ∧ Json.depthItems (job.skills.map Json.str) ≤ 0 := by
    rw [Json.exactItems_iff,Json.depthItems_le_iff]
    simp [Json.exact,Json.depth]
  have repeats : (Json.ofOption (fun n : UInt32 => .nat n.toNat) job.repeats).exact = true ∧
      (Json.ofOption (fun n : UInt32 => .nat n.toNat) job.repeats).depth = 0 := by
    cases job.repeats with
    | none => exact ⟨rfl, rfl⟩
    | some n =>
      have small := n.toNat_lt
      exact ⟨decide_eq_true (by omega), rfl⟩
  have deliver := Json.ofOption_str_plain job.deliver
  have script := Json.ofOption_str_plain job.script
  have lastRun := Json.ofOption_str_plain job.lastRun
  have nextRun := Json.ofOption_str_plain job.nextRun
  constructor
  · simp [toJson,Json.exact,Json.exactFields,skills,repeats,deliver,script,lastRun,nextRun]
  · simp [toJson,Json.depth,Json.depthFields,Nat.le_zero.mp skills.2,repeats,deliver,script,lastRun,nextRun]

theorem CronStore.toJson_plain (store : CronStore) : store.toJson.plain = true := by
  have exact : Json.exactItems (store.jobs.map CronJob.toJson) = true := by
    rw [Json.exactItems_iff,List.forall_mem_map]
    exact fun job _ => job.toJson_exact.1
  have depth : Json.depthItems (store.jobs.map CronJob.toJson) ≤ 2 := by
    rw [Json.depthItems_le_iff,List.forall_mem_map]
    exact fun job _ => job.toJson_exact.2
  simp [toJson,Json.plain,Json.exact,Json.exactFields,Json.depth,Json.depthFields,exact]
  omega

/-- What is at the path of the store: no text where the bytes are none, nothing to read without permission. -/
structure StoreFile where
  content : Option String
  readable : Bool
  deriving DecidableEq, Repr

def StoreFile.readToString (file : StoreFile) : Option String := if file.readable then file.content else none

/-- What comes of a write: it is refused, it breaks off and leaves something, or it is done. -/
inductive StoreWrite where
  | refused (error : String)
  | broken (error : String) (left : Option StoreFile)
  | done
  deriving DecidableEq, Repr

namespace CronEngine

/-- The store a file says, where it can be parsed. -/
def stored (text : StoreText) (file : Option StoreFile) : Option CronStore :=
  ((file.bind StoreFile.readToString).bind text.read).bind CronStore.ofJson

def load (text : StoreText) (file : Option StoreFile) : CronStore := (stored text file).getD ⟨[]⟩

def save (text : StoreText) (write : StoreWrite) (file : Option StoreFile) (store : CronStore) :
    Option StoreFile × Except String Unit :=
  match write with
  | .refused e => (file, .error e)
  | .broken e left => (left, .error e)
  | .done => (some ⟨some (text.pretty store.toJson), (file.map StoreFile.readable).getD true⟩, .ok ())

theorem stored_save {text : StoreText} (readsBack : text.ReadsBack) {file : Option StoreFile}
    (open_ : ∀ f, file = some f → f.readable = true) (store : CronStore) :
    stored text (save text .done file store).1 = some store := by
  have readable : (file.map StoreFile.readable).getD true = true := by
    cases file with
    | none => rfl
    | some f => exact open_ f rfl
  simp [save,stored,readable,StoreFile.readToString,readsBack _ store.toJson_plain,store.ofJson_toJson]

end CronEngine

end Zaion.Schedule
