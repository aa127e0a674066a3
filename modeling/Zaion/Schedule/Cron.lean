import Zaion.Schedule.CronStore

/-! `CronEngine`: each call loads the store, changes it, saves it and appends an event. What the clock,
the file system and the ledger answer a save is an argument. -/
namespace Zaion.Schedule

/-- The clock, the random id, the file system and the ledger, as one load and save meets them. -/
structure CronEnv where
  now : String
  uuid : String
  write : StoreWrite
  append : Except String Unit

structure CronEvent where
  eventType : String
  payload : Json
  deriving DecidableEq

/-- The file after a call, the events appended and what is returned. -/
structure Called (α : Type) where
  file : Option StoreFile
  events : List CronEvent
  result : Except String α

namespace CronEngine

/-- What all calls end with. -/
def saveAndAppend {α : Type} (text : StoreText) (env : CronEnv) (file : Option StoreFile) (store : CronStore)
    (event : CronEvent) (value : α) : Called α :=
  match save text env.write file store with
  | (file, .error e) => ⟨file, [], .error e⟩
  | (file, .ok ()) =>
    match env.append with
    | .error e => ⟨file, [], .error e⟩
    | .ok () => ⟨file, [event], .ok value⟩

def jobNotFound (jobId : String) : String := "job not found: " ++ jobId

/-- The first job of an id, changed, and all jobs with it. -/
def changeFirst (jobId : String) (change : CronJob → CronJob) : List CronJob → Option (CronJob × List CronJob)
  | [] => none
  | job :: rest =>
    if job.jobId = jobId then some (change job, change job :: rest)
    else (changeFirst jobId change rest).map fun changed => (changed.1, job :: changed.2)

/-- A call that changes the job of an id. -/
def changeJob (text : StoreText) (env : CronEnv) (file : Option StoreFile) (jobId : String) (change : CronJob → CronJob)
    (event : CronJob → CronEvent) : Called CronJob :=
  match changeFirst jobId change (load text file).jobs with
  | none => ⟨file, [], .error (jobNotFound jobId)⟩
  | some (job, jobs) => saveAndAppend text env file ⟨jobs⟩ (event job) job

section

variable (text : StoreText) (principalId : String) (env : CronEnv) (file : Option StoreFile)

def newJob (name schedule command : String) : CronJob where
  jobId := "cron-" ++ env.uuid
  name := name
  schedule := schedule
  command := command
  deliver := none
  repeats := none
  skills := []
  script := none
  principalId := principalId
  enabled := true
  lastRun := none
  nextRun := some env.now
  createdAt := env.now

def add (name schedule command : String) : Called CronJob :=
  let job := newJob principalId env name schedule command
  saveAndAppend text env file ⟨(load text file).jobs ++ [job]⟩
    ⟨"cron.added", .obj [("job_id", .str job.jobId), ("name", .str name), ("schedule", .str schedule),
      ("command", .str command)]⟩ job

def remove (jobId : String) : Called Unit :=
  let store := load text file
  let kept := store.jobs.filter fun job => decide (job.jobId ≠ jobId)
  if kept.length = store.jobs.length then ⟨file, [], .error (jobNotFound jobId)⟩
  else saveAndAppend text env file ⟨kept⟩ ⟨"cron.removed", .obj [("job_id", .str jobId)]⟩ ()

def setEnabled (jobId : String) (enabled : Bool) : Called CronJob :=
  changeJob text env file jobId (fun job => { job with enabled := enabled }) fun _ =>
    ⟨if enabled then "cron.resumed" else "cron.paused", .obj [("job_id", .str jobId), ("enabled", .bool enabled)]⟩

def edit (jobId : String) (name schedule command : Option String) : Called CronJob :=
  changeJob text env file jobId
    (fun job => { job with
      name := name.getD job.name
      schedule := schedule.getD job.schedule
      command := command.getD job.command })
    fun job => ⟨"cron.edited", .obj [("job_id", .str jobId), ("name", .str job.name), ("schedule", .str job.schedule)]⟩

/-- The skills after a change: replaced, cleared, added to and removed from, in this order. -/
def changedSkills (old : List String) (skills : Option (List String)) (addSkills removeSkills : List String)
    (clearSkills : Bool) : List String :=
  let start := if clearSkills then [] else skills.getD old
  let added := addSkills.foldl (fun all skill => if skill ∈ all then all else all ++ [skill]) start
  added.filter fun skill => decide (skill ∉ removeSkills)

def setMetadata (jobId : String) (deliver : Option String) (repeats : Option UInt32) (skills : Option (List String))
    (addSkills removeSkills : List String) (clearSkills : Bool) (script : Option String) : Called CronJob :=
  changeJob text env file jobId
    (fun job => { job with
      deliver := deliver.or job.deliver
      repeats := repeats.or job.repeats
      skills := changedSkills job.skills skills addSkills removeSkills clearSkills
      script := match script with
        | none => job.script
        | some s => if s = "" then none else some s })
    fun job => ⟨"cron.metadata", .obj [("job_id", .str jobId), ("deliver", .ofOption .str job.deliver),
      ("repeat", .ofOption (fun n => .nat n.toNat) job.repeats), ("skills", .arr (job.skills.map .str)),
      ("script", .ofOption .str job.script)]⟩

def list : List CronJob := (load text file).jobs

def runNow (jobId : String) : Called CronJob :=
  changeJob text env file jobId (fun job => { job with lastRun := some env.now }) fun job =>
    ⟨"cron.triggered", .obj [("job_id", .str jobId), ("triggered_at", .str env.now), ("command", .str job.command)]⟩

end

/-- The jobs of a tick run one after the other, until one fails. -/
def runAll (text : StoreText) (envs : Nat → CronEnv) (file : Option StoreFile) : Nat → List CronJob → Called (List CronJob)
  | _, [] => ⟨file, [], .ok []⟩
  | i, job :: rest =>
    match runNow text (envs i) file job.jobId with
    | ⟨file, events, .error e⟩ => ⟨file, events, .error e⟩
    | ⟨file, events, .ok run⟩ =>
      let later := runAll text envs file (i + 1) rest
      ⟨later.file, events ++ later.events, later.result.map (run :: ·)⟩

def tick (text : StoreText) (envs : Nat → CronEnv) (file : Option StoreFile) : Called (List CronJob) :=
  runAll text envs file 0 ((list text file).filter CronJob.enabled)

end CronEngine

inductive CronOp where
  | add (name schedule command : String)
  | remove (jobId : String)
  | setEnabled (jobId : String) (enabled : Bool)
  | edit (jobId : String) (name schedule command : Option String)
  | setMetadata (jobId : String) (deliver : Option String) (repeats : Option UInt32) (skills : Option (List String))
      (addSkills removeSkills : List String) (clearSkills : Bool) (script : Option String)
  | list
  | runNow (jobId : String)
  | tick
  deriving DecidableEq, Repr

def Called.jobs {α : Type} (called : Called α) (jobs : α → List CronJob) : Called (List CronJob) :=
  ⟨called.file, called.events, called.result.map jobs⟩

namespace CronEngine

/-- A call, the jobs it returns as a list; its saves meet one surrounding after the other. -/
def call (text : StoreText) (principalId : String) (envs : Nat → CronEnv) (file : Option StoreFile) :
    CronOp → Called (List CronJob)
  | .add name schedule command => (add text principalId (envs 0) file name schedule command).jobs ([·])
  | .remove jobId => (remove text (envs 0) file jobId).jobs fun _ => []
  | .setEnabled jobId enabled => (setEnabled text (envs 0) file jobId enabled).jobs ([·])
  | .edit jobId name schedule command => (edit text (envs 0) file jobId name schedule command).jobs ([·])
  | .setMetadata jobId deliver repeats skills addSkills removeSkills clearSkills script =>
    (setMetadata text (envs 0) file jobId deliver repeats skills addSkills removeSkills clearSkills script).jobs ([·])
  | .list => ⟨file, [], .ok (list text file)⟩
  | .runNow jobId => (runNow text (envs 0) file jobId).jobs ([·])
  | .tick => tick text envs file

end CronEngine

end Zaion.Schedule
