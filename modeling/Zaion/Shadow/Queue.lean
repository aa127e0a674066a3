import Zaion.Sample
import Zaion.Lib.Stable
import Zaion.Lib.Steps
import Zaion.Lib.Table

/-! The queue of shadow tasks: what waits is kept by priority, what runs is kept apart, and what has ended stays in the
table. Calls take the clock reading they make as an argument. -/
namespace Zaion.Shadow

open Lib

inductive TaskStatus where
  | queued
  | running
  | completed
  | failed
  | cancelled
  deriving DecidableEq, Repr

structure TaskResult where
  success : Bool
  output : Option String
  error : Option String
  filesWritten : List String
  filesRead : List String
  aciOperations : Nat
  durationMs : Nat
  deriving DecidableEq

structure ShadowTask (TaskId : Type) where
  id : TaskId
  status : TaskStatus
  startedAt : Option DateTime
  completedAt : Option DateTime
  result : Option TaskResult
  priority : Int
  retryCount : Nat
  maxRetries : Nat
  deriving DecidableEq

def ShadowTask.isTerminal {TaskId : Type} (t : ShadowTask TaskId) : Bool :=
  t.status = .completed || t.status = .failed || t.status = .cancelled

def ShadowTask.canRetry {TaskId : Type} (t : ShadowTask TaskId) : Bool := t.status = .failed && decide (t.retryCount < t.maxRetries)

/-- The task as it ended. -/
def ShadowTask.ended {TaskId : Type} (t : ShadowTask TaskId) (result : TaskResult) (now : DateTime) : ShadowTask TaskId :=
  { t with status := if result.success then .completed else .failed, completedAt := some now, result := some result }

/-- A failed task that goes back to the queue. -/
def ShadowTask.retried {TaskId : Type} (t : ShadowTask TaskId) : ShadowTask TaskId :=
  { t with retryCount := t.retryCount + 1, status := .queued, startedAt := none, completedAt := none, result := none }

def ShadowTask.cancel {TaskId : Type} (t : ShadowTask TaskId) (now : DateTime) : ShadowTask TaskId :=
  { t with status := .cancelled, completedAt := some now }

theorem ended_status {TaskId : Type} (task : ShadowTask TaskId) (result : TaskResult) (now : DateTime) :
    (task.ended result now).status ≠ .running ∧ (task.ended result now).status ≠ .queued := by
  unfold ShadowTask.ended
  dsimp only
  split <;> simp

section

variable {TaskId : Type} [DecidableEq TaskId]

/-- A `HashMap<TaskId, ShadowTask>`. -/
abbrev TaskMap (TaskId : Type) := AList (fun _ : TaskId => ShadowTask TaskId)

def TaskMap.len (m : TaskMap TaskId) : Nat := m.keys.length

structure TaskQueue (TaskId : Type) where
  tasks : TaskMap TaskId
  queue : List TaskId
  running : TaskMap TaskId
  maxCapacity : Nat
  maxConcurrent : Nat

inductive ShadowError (TaskId : Type) where
  | queueFull (max : Nat)
  | taskNotFound (id : TaskId)
  deriving DecidableEq

namespace TaskQueue

def new (TaskId : Type) (maxCapacity maxConcurrent : Nat) : TaskQueue TaskId := ⟨∅, [], ∅, maxCapacity, maxConcurrent⟩

/-- Whether the task in the table under this id has a lower priority. -/
def isBelow (q : TaskQueue TaskId) (priority : Int) (id : TaskId) : Bool :=
  ((q.tasks.lookup id).map fun t => decide (t.priority < priority)).getD false

/-- `insert_pos`, the length of the queue when no task in it has a lower priority. -/
def insertPos (q : TaskQueue TaskId) (priority : Int) : Nat := q.queue.findIdx (q.isBelow priority)

def enqueue (q : TaskQueue TaskId) (task : ShadowTask TaskId) : TaskQueue TaskId × Except (ShadowError TaskId) TaskId :=
  if q.maxCapacity ≤ q.tasks.len then (q, .error (.queueFull q.maxCapacity))
  else
    let task := { task with status := .queued }
    ({ q with
        queue := q.queue.insertIdx (q.insertPos task.priority) task.id
        tasks := q.tasks.insert task.id task }, .ok task.id)

/-- An id whose task is not in the table is dropped from the queue. -/
def dequeue (q : TaskQueue TaskId) (now : DateTime) : TaskQueue TaskId × Option (ShadowTask TaskId) :=
  if q.maxConcurrent ≤ q.running.len then (q, none)
  else match q.queue with
    | [] => (q, none)
    | id :: rest =>
      match q.tasks.lookup id with
      | none => ({ q with queue := rest }, none)
      | some task =>
        let task := { task with status := .running, startedAt := some now }
        ({ q with queue := rest, tasks := q.tasks.erase id, running := q.running.insert id task }, some task)

def completeTask (q : TaskQueue TaskId) (id : TaskId) (result : TaskResult) (now : DateTime) :
    TaskQueue TaskId × Except (ShadowError TaskId) Unit :=
  match q.running.lookup id with
  | none => (q, .error (.taskNotFound id))
  | some task =>
    let running := q.running.erase id
    let task := task.ended result now
    if !result.success && task.canRetry then
      ({ q with
          running
          queue := q.queue.insertIdx (q.insertPos task.priority) id
          tasks := q.tasks.insert id task.retried }, .ok ())
    else ({ q with running, tasks := q.tasks.insert id task }, .ok ())

/-- The running map, where a task that is not waiting is looked for. -/
def cancelRunning (q : TaskQueue TaskId) (id : TaskId) (now : DateTime) : TaskQueue TaskId × Except (ShadowError TaskId) Unit :=
  match q.running.lookup id with
  | none => (q, .error (.taskNotFound id))
  | some task => ({ q with running := q.running.erase id, tasks := q.tasks.insert id (task.cancel now) }, .ok ())

def cancelTask (q : TaskQueue TaskId) (id : TaskId) (now : DateTime) : TaskQueue TaskId × Except (ShadowError TaskId) Unit :=
  if id ∈ q.queue then
    let q := { q with queue := q.queue.erase id }
    match q.tasks.lookup id with
    | some task => ({ q with tasks := q.tasks.insert id (task.cancel now) }, .ok ())
    | none => q.cancelRunning id now
  else q.cancelRunning id now

def getTask (q : TaskQueue TaskId) (id : TaskId) : Option (ShadowTask TaskId) := (q.tasks.lookup id).or (q.running.lookup id)

def hasCapacityToRun (q : TaskQueue TaskId) : Bool := decide (q.running.len < q.maxConcurrent) && !q.queue.isEmpty

structure QueueStats where
  totalTasks : Nat
  queued : Nat
  running : Nat
  completed : Nat
  failed : Nat
  cancelled : Nat
  maxCapacity : Nat
  deriving DecidableEq

/-- The tasks in the table with this status. -/
def countOf (q : TaskQueue TaskId) (status : TaskStatus) : Nat := q.tasks.entries.countP (fun e => e.2.status = status)

def stats (q : TaskQueue TaskId) : QueueStats where
  totalTasks := q.tasks.len + q.running.len
  queued := q.countOf .queued
  running := q.running.len
  completed := q.countOf .completed
  failed := q.countOf .failed
  cancelled := q.countOf .cancelled
  maxCapacity := q.maxCapacity

end TaskQueue

inductive Act (TaskId : Type) where
  | enqueue (task : ShadowTask TaskId)
  | dequeue (now : DateTime)
  | completeTask (id : TaskId) (result : TaskResult) (now : DateTime)
  | cancelTask (id : TaskId) (now : DateTime)

/-- One call. Ids are uuids drawn for each task: one that is known already does not occur. -/
def step (q : TaskQueue TaskId) : Act TaskId → Option (TaskQueue TaskId)
  | .enqueue task => if (q.getTask task.id).isSome then none else some (q.enqueue task).1
  | .dequeue now => some (q.dequeue now).1
  | .completeTask id result now => some (q.completeTask id result now).1
  | .cancelTask id now => some (q.cancelTask id now).1

theorem lookup_insert_ite (m : TaskMap TaskId) (k : TaskId) (t : ShadowTask TaskId) (id : TaskId) :
    (m.insert k t).lookup id = if id = k then some t else m.lookup id := by
  split
  · rename_i same
    rw [same,AList.lookup_insert]
  · rename_i other
    exact AList.lookup_insert_ne other

theorem lookup_erase_ite (m : TaskMap TaskId) (k id : TaskId) :
    (m.erase k).lookup id = if id = k then none else m.lookup id := by
  split
  · rename_i same
    rw [same,AList.lookup_erase]
  · rename_i other
    exact AList.lookup_erase_ne other

theorem mem_keys_of_lookup {m : TaskMap TaskId} {k : TaskId} {t : ShadowTask TaskId} (here : m.lookup k = some t) : k ∈ m.keys := by
  rw [← AList.mem_keys,← AList.lookup_isSome,here]
  rfl

theorem notMem_keys_of_lookup {m : TaskMap TaskId} {k : TaskId} (none_ : m.lookup k = none) : k ∉ m.keys := by
  rw [← AList.mem_keys]
  exact AList.lookup_eq_none.mp none_

theorem len_insert_new {m : TaskMap TaskId} {k : TaskId} (t : ShadowTask TaskId) (none_ : m.lookup k = none) :
    TaskMap.len (m.insert k t) = m.len + 1 := by
  simp [TaskMap.len,AList.keys_insert,List.erase_of_not_mem (notMem_keys_of_lookup none_)]

theorem len_insert_old {m : TaskMap TaskId} {k : TaskId} (t : ShadowTask TaskId) {old : ShadowTask TaskId}
    (here : m.lookup k = some old) : TaskMap.len (m.insert k t) = m.len := by
  have inside := mem_keys_of_lookup here
  have some_ := List.length_pos_of_mem inside
  simp only [TaskMap.len,AList.keys_insert,List.length_cons,List.length_erase_of_mem inside]
  omega

theorem len_erase {m : TaskMap TaskId} {k : TaskId} {old : ShadowTask TaskId} (here : m.lookup k = some old) :
    TaskMap.len (m.erase k) + 1 = m.len := by
  have inside := mem_keys_of_lookup here
  have some_ := List.length_pos_of_mem inside
  simp only [TaskMap.len,AList.keys_erase,List.length_erase_of_mem inside]
  omega

variable {q q' : TaskQueue TaskId} {act : Act TaskId}

/-- The call puts a new task in the queue. -/
def accepts (q : TaskQueue TaskId) : Act TaskId → Bool
  | .enqueue _ => decide (q.tasks.len < q.maxCapacity)
  | _ => false

/-- The task the call hands out to run. -/
def served (q : TaskQueue TaskId) : Act TaskId → Option (ShadowTask TaskId)
  | .dequeue now => (q.dequeue now).2
  | _ => none

/-- The priority of a waiting task. -/
def TaskQueue.priority (q : TaskQueue TaskId) (id : TaskId) : Int := ((q.tasks.lookup id).map ShadowTask.priority).getD 0

structure Inv (q : TaskQueue TaskId) : Prop where
  apart : ∀ id t, q.tasks.lookup id = some t → q.running.lookup id = none
  waiting : ∀ id, id ∈ q.queue ↔ ∃ t, q.tasks.lookup id = some t ∧ t.status = .queued
  nodup : q.queue.Nodup
  parked : ∀ id t, q.tasks.lookup id = some t → t.id = id ∧ t.status ≠ .running
  active : ∀ id t, q.running.lookup id = some t → t.id = id ∧ t.status = .running
  room : q.running.len ≤ q.maxConcurrent

/-- All a call does where the invariant holds. -/
inductive Effect (q : TaskQueue TaskId) : Act TaskId → TaskQueue TaskId → Prop
  | idle (act : Act TaskId) (accepted : accepts q act = false) (handed : served q act = none) : Effect q act q
  | enter (task : ShadowTask TaskId) (space : q.tasks.len < q.maxCapacity) (new : q.getTask task.id = none) :
      Effect q (.enqueue task) { q with
        queue := q.queue.insertIdx (q.insertPos task.priority) task.id
        tasks := q.tasks.insert task.id { task with status := .queued } }
  | start (now : DateTime) (id : TaskId) (rest : List TaskId) (task : ShadowTask TaskId)
      (free : q.running.len < q.maxConcurrent) (head : q.queue = id :: rest) (here : q.tasks.lookup id = some task) :
      Effect q (.dequeue now) { q with
        queue := rest
        tasks := q.tasks.erase id
        running := q.running.insert id { task with status := .running, startedAt := some now } }
  | finish (id : TaskId) (result : TaskResult) (now : DateTime) (task : ShadowTask TaskId)
      (here : q.running.lookup id = some task) :
      Effect q (.completeTask id result now) { q with
        running := q.running.erase id
        tasks := q.tasks.insert id (task.ended result now) }
  | retry (id : TaskId) (result : TaskResult) (now : DateTime) (task : ShadowTask TaskId)
      (here : q.running.lookup id = some task) (left : task.retryCount < task.maxRetries) :
      Effect q (.completeTask id result now) { q with
        running := q.running.erase id
        queue := q.queue.insertIdx (q.insertPos task.priority) id
        tasks := q.tasks.insert id (task.ended result now).retried }
  | cancelWaiting (id : TaskId) (now : DateTime) (task : ShadowTask TaskId) (inside : id ∈ q.queue)
      (here : q.tasks.lookup id = some task) :
      Effect q (.cancelTask id now) { q with queue := q.queue.erase id, tasks := q.tasks.insert id (task.cancel now) }
  | cancelRunning (id : TaskId) (now : DateTime) (task : ShadowTask TaskId) (here : q.running.lookup id = some task) :
      Effect q (.cancelTask id now) { q with running := q.running.erase id, tasks := q.tasks.insert id (task.cancel now) }

theorem enqueue_effect {task : ShadowTask TaskId} (taken : step q (.enqueue task) = some q') : Effect q (.enqueue task) q' := by
  simp only [step,Option.ite_none_left_eq_some,Option.some.injEq,Option.not_isSome_iff_eq_none] at taken
  obtain ⟨new, rfl⟩ := taken
  unfold TaskQueue.enqueue
  split
  · exact .idle _ (by simpa [accepts] using ‹_›) rfl
  · exact .enter task (by omega) new

theorem dequeue_effect (inv : Inv q) {now : DateTime} : Effect q (.dequeue now) (q.dequeue now).1 := by
  by_cases full : q.maxConcurrent ≤ q.running.len
  · have none_ : q.dequeue now = (q, none) := by simp [TaskQueue.dequeue,full]
    rw [none_]
    exact .idle _ rfl (by simp [served,none_])
  · cases head : q.queue with
    | nil =>
      have none_ : q.dequeue now = (q, none) := by simp [TaskQueue.dequeue,full,head]
      rw [none_]
      exact .idle _ rfl (by simp [served,none_])
    | cons id rest =>
      obtain ⟨task, here, _⟩ := (inv.waiting id).mp (head ▸ List.mem_cons_self)
      simp only [TaskQueue.dequeue,full,head,here,if_false]
      exact .start now id rest task (by omega) head here

theorem completeTask_effect {id : TaskId} {result : TaskResult} {now : DateTime} :
    Effect q (.completeTask id result now) (q.completeTask id result now).1 := by
  unfold TaskQueue.completeTask
  split
  · exact .idle _ rfl rfl
  · rename_i task here
    dsimp only
    split
    · rename_i again
      simp only [ShadowTask.canRetry,Bool.and_eq_true,decide_eq_true_eq] at again
      exact .retry id result now task here again.2.2
    · exact .finish id result now task here

theorem cancelRunning_effect {id : TaskId} {now : DateTime} : Effect q (.cancelTask id now) (q.cancelRunning id now).1 := by
  unfold TaskQueue.cancelRunning
  split
  · exact .idle _ rfl rfl
  · exact .cancelRunning id now _ ‹_›

theorem cancelTask_effect (inv : Inv q) {id : TaskId} {now : DateTime} : Effect q (.cancelTask id now) (q.cancelTask id now).1 := by
  unfold TaskQueue.cancelTask
  split
  · rename_i inside
    obtain ⟨task, here, _⟩ := (inv.waiting id).mp inside
    simp only [here]
    exact .cancelWaiting id now task inside here
  · exact cancelRunning_effect

theorem step_effect (inv : Inv q) (taken : step q act = some q') : Effect q act q' := by
  cases act with
  | enqueue task => exact enqueue_effect taken
  | dequeue now => exact Option.some.inj taken ▸ dequeue_effect inv
  | completeTask id result now => exact Option.some.inj taken ▸ completeTask_effect
  | cancelTask id now => exact Option.some.inj taken ▸ cancelTask_effect inv

theorem getTask_none {id : TaskId} (none_ : q.getTask id = none) : q.tasks.lookup id = none ∧ q.running.lookup id = none := by
  simpa [TaskQueue.getTask] using none_

theorem insertPos_le (priority : Int) : q.insertPos priority ≤ q.queue.length := List.findIdx_le_length

theorem mem_insertPos {priority : Int} {id other : TaskId} :
    other ∈ q.queue.insertIdx (q.insertPos priority) id ↔ other = id ∨ other ∈ q.queue :=
  List.mem_insertIdx (insertPos_le priority)

theorem nodup_insertPos {priority : Int} {id : TaskId} (nodup : q.queue.Nodup) (new : id ∉ q.queue) :
    (q.queue.insertIdx (q.insertPos priority) id).Nodup := by
  have perm := List.perm_insertIdx id q.queue (insertPos_le priority)
  exact perm.nodup_iff.mpr (List.nodup_cons.mpr ⟨new, nodup⟩)

/-- The two maps and the queue after a call that touches one id, with what stands under it then. -/
structure Change (q q' : TaskQueue TaskId) (k : TaskId) (t r : Option (ShadowTask TaskId)) : Prop where
  tasks : ∀ id, q'.tasks.lookup id = if id = k then t else q.tasks.lookup id
  running : ∀ id, q'.running.lookup id = if id = k then r else q.running.lookup id
  queue : ∀ id, id ∈ q'.queue ↔ if id = k then t.any (·.status = .queued) = true else id ∈ q.queue
  nodup : q'.queue.Nodup
  one : t = none ∨ r = none
  parked : ∀ u, t = some u → u.id = k ∧ u.status ≠ .running
  active : ∀ u, r = some u → u.id = k ∧ u.status = .running
  room : q'.running.len ≤ q'.maxConcurrent

theorem Inv.change {k : TaskId} {t r : Option (ShadowTask TaskId)} (inv : Inv q) (change : Change q q' k t r) : Inv q' := by
  refine ⟨?_, ?_, change.nodup, ?_, ?_, change.room⟩
  · intro id u here
    rw [change.tasks] at here
    rw [change.running]
    split at here
    · rename_i same
      rw [if_pos same]
      exact change.one.resolve_left (by simp [here])
    · rename_i other
      rw [if_neg other]
      exact inv.apart id u here
  · intro id
    rw [change.queue,change.tasks]
    split
    · cases t <;> simp
    · exact inv.waiting id
  · intro id u here
    rw [change.tasks] at here
    split at here
    · rename_i same
      exact same ▸ change.parked u here
    · exact inv.parked id u here
  · intro id u here
    rw [change.running] at here
    split at here
    · rename_i same
      exact same ▸ change.active u here
    · exact inv.active id u here

theorem Inv.notMem_of_running (inv : Inv q) {id : TaskId} {task : ShadowTask TaskId} (here : q.running.lookup id = some task) :
    id ∉ q.queue := by
  intro inside
  obtain ⟨_, there, _⟩ := (inv.waiting id).mp inside
  rw [inv.apart id _ there] at here
  cases here

/-- What becomes of the task under the id that a call touches, and what the call hands out. -/
inductive Lived : Act TaskId → Option (ShadowTask TaskId) → Option (ShadowTask TaskId) → Option (ShadowTask TaskId) → Prop
  | entered (task : ShadowTask TaskId) : Lived (.enqueue task) none (some { task with status := .queued }) none
  | started (now : DateTime) (task : ShadowTask TaskId) (waited : task.status = .queued) :
      Lived (.dequeue now) (some task) (some { task with status := .running, startedAt := some now })
        (some { task with status := .running, startedAt := some now })
  | ended (id : TaskId) (result : TaskResult) (now : DateTime) (task : ShadowTask TaskId) (ran : task.status = .running) :
      Lived (.completeTask id result now) (some task) (some (task.ended result now)) none
  | retried (id : TaskId) (result : TaskResult) (now : DateTime) (task : ShadowTask TaskId) (ran : task.status = .running)
      (left : task.retryCount < task.maxRetries) :
      Lived (.completeTask id result now) (some task) (some (task.ended result now).retried) none
  | cancelled (id : TaskId) (now : DateTime) (task : ShadowTask TaskId) (live : task.isTerminal = false) :
      Lived (.cancelTask id now) (some task) (some (task.cancel now)) none

theorem Change.getTask {k : TaskId} {t r : Option (ShadowTask TaskId)} (change : Change q q' k t r) (id : TaskId) :
    q'.getTask id = if id = k then t.or r else q.getTask id := by
  unfold TaskQueue.getTask
  rw [change.tasks,change.running]
  split <;> rfl

theorem Inv.getTask_running (inv : Inv q) {id : TaskId} {task : ShadowTask TaskId} (here : q.running.lookup id = some task) :
    q.getTask id = some task := by
  unfold TaskQueue.getTask
  cases there : q.tasks.lookup id with
  | none => exact here
  | some other =>
    rw [inv.apart id other there] at here
    cases here

theorem getTask_tasks {id : TaskId} {task : ShadowTask TaskId} (here : q.tasks.lookup id = some task) : q.getTask id = some task := by
  unfold TaskQueue.getTask
  rw [here]
  rfl

theorem room_erase (inv : Inv q) {id : TaskId} {task : ShadowTask TaskId} (here : q.running.lookup id = some task) :
    TaskMap.len (q.running.erase id) ≤ q.maxConcurrent := by
  have := len_erase here
  have := inv.room
  omega

/-- A call does nothing, or it changes what stands under one id. -/
theorem Inv.effect_change (inv : Inv q) (effect : Effect q act q') : (q' = q ∧ served q act = none) ∨
    ∃ k t r, Change q q' k t r ∧ Lived act (q.getTask k) (t.or r) (served q act) := by
  cases effect with
  | idle _ accepted handed => exact .inl ⟨rfl, handed⟩
  | enter task space new =>
    obtain ⟨noTask, noRunning⟩ := getTask_none new
    have outside : task.id ∉ q.queue := by
      intro inside
      obtain ⟨_, there, _⟩ := (inv.waiting _).mp inside
      rw [noTask] at there
      cases there
    refine .inr ⟨task.id, some { task with status := .queued }, none, ?_, by rw [new]; exact .entered task⟩
    refine ⟨lookup_insert_ite _ _ _, ?_, ?_, nodup_insertPos inv.nodup outside, .inr rfl, ?_, by simp, inv.room⟩
    · intro id
      split
      · rename_i same
        rw [same]
        exact noRunning
      · rfl
    · intro id
      rw [mem_insertPos]
      split <;> simp [*]
    · rintro u ⟨⟩
      exact ⟨rfl, by simp⟩
  | start now id rest task free head here =>
    have noRunning := inv.apart id task here
    have nodup := head ▸ inv.nodup
    obtain ⟨_, there, waited⟩ := (inv.waiting id).mp (head ▸ List.mem_cons_self)
    obtain rfl := Option.some.inj (here.symm.trans there)
    have handed : served q (.dequeue now) = some { task with status := .running, startedAt := some now } := by
      simp only [served,TaskQueue.dequeue,if_neg (not_le.mpr free),head,here]
    refine .inr ⟨id, none, some { task with status := .running, startedAt := some now }, ?_, ?_⟩
    · refine ⟨lookup_erase_ite _ _, lookup_insert_ite _ _ _, ?_, (List.nodup_cons.mp nodup).2, .inl rfl, by simp, ?_, ?_⟩
      · intro other
        rw [head]
        split
        · rename_i same
          simpa [same] using (List.nodup_cons.mp nodup).1
        · simp [*]
      · rintro u ⟨⟩
        exact ⟨(inv.parked id task here).1, rfl⟩
      · show TaskMap.len (q.running.insert id _) ≤ q.maxConcurrent
        rw [len_insert_new _ noRunning]
        exact free
    · rw [getTask_tasks here,handed]
      exact .started now task waited
  | finish id result now task here =>
    have outside := inv.notMem_of_running here
    refine .inr ⟨id, some (task.ended result now), none, ?_, ?_⟩
    · refine ⟨lookup_insert_ite _ _ _, lookup_erase_ite _ _, ?_, inv.nodup, .inr rfl, ?_, by simp, room_erase inv here⟩
      · intro other
        split
        · rename_i same
          simp [same,outside,(ended_status task result now).2]
        · rfl
      · rintro u ⟨⟩
        exact ⟨(inv.active id task here).1, (ended_status task result now).1⟩
    · rw [inv.getTask_running here]
      exact .ended id result now task (inv.active id task here).2
  | retry id result now task here left =>
    have outside := inv.notMem_of_running here
    refine .inr ⟨id, some (task.ended result now).retried, none, ?_, ?_⟩
    · refine ⟨lookup_insert_ite _ _ _, lookup_erase_ite _ _, ?_, nodup_insertPos inv.nodup outside, .inr rfl, ?_, by simp,
        room_erase inv here⟩
      · intro other
        rw [mem_insertPos]
        split <;> simp [*,ShadowTask.retried]
      · rintro u ⟨⟩
        exact ⟨(inv.active id task here).1, by simp [ShadowTask.retried]⟩
    · rw [inv.getTask_running here]
      exact .retried id result now task (inv.active id task here).2 left
  | cancelWaiting id now task inside here =>
    obtain ⟨_, there, waited⟩ := (inv.waiting id).mp inside
    obtain rfl := Option.some.inj (here.symm.trans there)
    refine .inr ⟨id, some (task.cancel now), none, ?_, ?_⟩
    · refine ⟨lookup_insert_ite _ _ _, ?_, ?_, inv.nodup.erase id, .inr rfl, ?_, by simp, inv.room⟩
      · intro other
        split
        · rename_i same
          rw [same]
          exact inv.apart id task here
        · rfl
      · intro other
        rw [inv.nodup.mem_erase_iff]
        split <;> simp [*,ShadowTask.cancel]
      · rintro u ⟨⟩
        exact ⟨(inv.parked id task here).1, by simp [ShadowTask.cancel]⟩
    · rw [getTask_tasks here]
      exact .cancelled id now task (by simp [ShadowTask.isTerminal,waited])
  | cancelRunning id now task here =>
    have outside := inv.notMem_of_running here
    refine .inr ⟨id, some (task.cancel now), none, ?_, ?_⟩
    · refine ⟨lookup_insert_ite _ _ _, lookup_erase_ite _ _, ?_, inv.nodup, .inr rfl, ?_, by simp, room_erase inv here⟩
      · intro other
        split
        · rename_i same
          simp [same,outside,ShadowTask.cancel]
        · rfl
      · rintro u ⟨⟩
        exact ⟨(inv.active id task here).1, by simp [ShadowTask.cancel]⟩
    · rw [inv.getTask_running here]
      exact .cancelled id now task (by simp [ShadowTask.isTerminal,(inv.active id task here).2])

theorem Inv.lookup_of_running (inv : Inv q) {id : TaskId} {task : ShadowTask TaskId} (here : q.running.lookup id = some task) :
    q.tasks.lookup id = none := by
  cases there : q.tasks.lookup id with
  | none => rfl
  | some other =>
    rw [inv.apart id other there] at here
    cases here

theorem Inv.effect (inv : Inv q) (effect : Effect q act q') : Inv q' := by
  rcases inv.effect_change effect with ⟨rfl, _⟩ | ⟨_, _, _, change, _⟩
  · exact inv
  · exact inv.change change

theorem Inv.step (inv : Inv q) (taken : Shadow.step q act = some q') : Inv q' := inv.effect (step_effect inv taken)

theorem Inv.new (maxCapacity maxConcurrent : Nat) : Inv (TaskQueue.new TaskId maxCapacity maxConcurrent) := by
  constructor <;> simp [TaskQueue.new,TaskMap.len]

theorem Inv.run {acts : List (Act TaskId)} (inv : Inv q) (run : steps Shadow.step q acts = some q') : Inv q' :=
  steps_invariant run inv fun _ _ _ here taken => here.step taken

/-- The waiting ids in order of arrival, after a call. -/
def arrivals (order before after : List TaskId) : List TaskId := order.filter (· ∈ after) ++ after.filter (· ∉ before)

/-- One call, and the order of arrival beside it. -/
def watch (s : TaskQueue TaskId × List TaskId) (act : Act TaskId) : Option (TaskQueue TaskId × List TaskId) :=
  (step s.1 act).map fun q => (q, arrivals s.2 s.1.queue q.queue)

structure InOrder (q : TaskQueue TaskId) (order : List TaskId) : Prop where
  inv : Inv q
  perm : order.Perm q.queue
  ranked : Ranked q.priority order q.queue

theorem arrivals_perm {order before after : List TaskId} (perm : order.Perm before) (nodup : before.Nodup) (nodup' : after.Nodup) :
    (arrivals order before after).Perm after := by
  refine (List.perm_ext_iff_of_nodup ?_ nodup').mpr fun id => ?_
  · refine List.nodup_append.mpr ⟨(perm.nodup_iff.mpr nodup).filter _, nodup'.filter _, ?_⟩
    rintro a left b right rfl
    simp only [List.mem_filter,decide_eq_true_eq] at left right
    exact right.2 (perm.mem_iff.mp left.1)
  · simp only [arrivals,List.mem_append,List.mem_filter,decide_eq_true_eq,perm.mem_iff]
    tauto

/-- Where nothing enters the queue. -/
theorem InOrder.shrink {order : List TaskId} (inOrder : InOrder q order) (part : q'.queue.Sublist q.queue)
    (same : ∀ id ∈ q'.queue, q'.priority id = q.priority id) : Ranked q'.priority (arrivals order q.queue q'.queue) q'.queue :=
  (((inOrder.ranked.sublist part).congr same).filter (fun _ member => by simpa using member)).mono
    (List.sublist_append_left ..)

/-- Where an id enters the queue. -/
theorem InOrder.grow {order : List TaskId} {k : TaskId} {priority : Int} (inOrder : InOrder q order) (new : k ∉ q.queue)
    (inserted : q'.queue = q.queue.insertIdx (q.insertPos priority) k) (own : q'.priority k = priority)
    (same : ∀ id ∈ q.queue, q'.priority id = q.priority id) : Ranked q'.priority (arrivals order q.queue q'.queue) q'.queue := by
  have arrived : q'.queue.filter (· ∉ q.queue) = [k] := by
    have perm := List.perm_insertIdx k q.queue (insertPos_le priority)
    have few := perm.filter (fun id => decide (id ∉ q.queue))
    have gone : q.queue.filter (fun id => decide (id ∉ q.queue)) = [] := List.filter_eq_nil_iff.mpr (by simp)
    rw [List.filter_cons_of_pos (by simpa using new),gone] at few
    rw [inserted]
    exact List.perm_singleton.mp few
  have kept : ∀ id ∈ q.queue, (decide (id ∈ q'.queue)) = true := by
    intro id member
    simp [inserted,mem_insertPos,member]
  rw [arrivals,arrived,inserted]
  refine ((inOrder.ranked.congr same).filter (by simpa only [inserted] using kept)).insertIdx ?_ ?_
  · intro id member
    exact List.mem_filter.mpr ⟨inOrder.perm.mem_iff.mpr member, by simpa only [inserted] using kept id member⟩
  · intro id member
    obtain ⟨t, here, _⟩ := (inOrder.inv.waiting id).mp member
    rw [own,same id member]
    simp [TaskQueue.isBelow,TaskQueue.priority,here]

theorem priority_insert {m : TaskMap TaskId} {k : TaskId} {t : ShadowTask TaskId} (tasks : q'.tasks = m.insert k t) (id : TaskId) :
    q'.priority id = if id = k then t.priority else ((m.lookup id).map ShadowTask.priority).getD 0 := by
  unfold TaskQueue.priority
  rw [tasks,lookup_insert_ite]
  split <;> rfl

theorem InOrder.effect {order : List TaskId} (inOrder : InOrder q order) (effect : Effect q act q') :
    Ranked q'.priority (arrivals order q.queue q'.queue) q'.queue := by
  have inv := inOrder.inv
  cases effect with
  | idle => exact inOrder.shrink (List.Sublist.refl _) (fun _ _ => rfl)
  | enter task space new =>
    have outside : task.id ∉ q.queue := by
      intro inside
      obtain ⟨_, there, _⟩ := (inv.waiting _).mp inside
      rw [(getTask_none new).1] at there
      cases there
    refine inOrder.grow outside rfl (by simp [TaskQueue.priority]) fun id member => ?_
    exact (priority_insert rfl id).trans (if_neg fun (same : id = task.id) => outside (same ▸ member))
  | start now id rest task free head here =>
    have nodup := head ▸ inv.nodup
    refine inOrder.shrink (head ▸ List.sublist_cons_self ..) fun other member => ?_
    have apart : other ≠ id := fun same => (List.nodup_cons.mp nodup).1 (same ▸ member)
    simp only [TaskQueue.priority,AList.lookup_erase_ne apart]
  | finish id result now task here =>
    refine inOrder.shrink (List.Sublist.refl _) fun other member => ?_
    exact (priority_insert rfl other).trans (if_neg fun (same : other = id) => inv.notMem_of_running here (same ▸ member))
  | retry id result now task here left =>
    have outside := inv.notMem_of_running here
    refine inOrder.grow outside rfl (by simp [TaskQueue.priority,ShadowTask.retried,ShadowTask.ended]) fun other member => ?_
    exact (priority_insert rfl other).trans (if_neg fun (same : other = id) => outside (same ▸ member))
  | cancelWaiting id now task inside here =>
    refine inOrder.shrink List.erase_sublist fun other member => ?_
    have apart : other ≠ id := fun same => by
      rw [same,inv.nodup.mem_erase_iff] at member
      exact member.1 rfl
    exact (priority_insert rfl other).trans (if_neg apart)
  | cancelRunning id now task here =>
    refine inOrder.shrink (List.Sublist.refl _) fun other member => ?_
    exact (priority_insert rfl other).trans (if_neg fun (same : other = id) => inv.notMem_of_running here (same ▸ member))

theorem watch_inOrder {s s' : TaskQueue TaskId × List TaskId} (inOrder : InOrder s.1 s.2) (taken : watch s act = some s') :
    InOrder s'.1 s'.2 := by
  obtain ⟨q, stepped, rfl⟩ := Option.map_eq_some_iff.mp taken
  have effect := step_effect inOrder.inv stepped
  have inv := inOrder.inv.effect effect
  exact ⟨inv, arrivals_perm inOrder.perm inOrder.inv.nodup inv.nodup, inOrder.effect effect⟩

theorem InOrder.run {order : List TaskId} {maxCapacity maxConcurrent : Nat} {acts : List (Act TaskId)}
    (run : steps watch (TaskQueue.new TaskId maxCapacity maxConcurrent, []) acts = some (q, order)) : InOrder q order := by
  have start : InOrder (TaskQueue.new TaskId maxCapacity maxConcurrent) [] :=
    ⟨.new maxCapacity maxConcurrent, List.Perm.nil, List.Pairwise.nil⟩
  have kept : ∀ (s : TaskQueue TaskId × List TaskId) (a : Act TaskId) (s' : TaskQueue TaskId × List TaskId),
      InOrder s.1 s.2 → watch s a = some s' → InOrder s'.1 s'.2 := fun _ _ _ here taken => watch_inOrder here taken
  exact @steps_invariant _ _ _ _ (q, order) _ (fun s => InOrder s.1 s.2) run start kept

theorem dequeue_none_iff (inv : Inv q) (now : DateTime) :
    (q.dequeue now).2 = none ↔ q.maxConcurrent ≤ q.running.len ∨ q.queue = [] := by
  by_cases full : q.maxConcurrent ≤ q.running.len
  · simp [TaskQueue.dequeue,full]
  · cases head : q.queue with
    | nil => simp [TaskQueue.dequeue,head]
    | cons id rest =>
      obtain ⟨task, here, _⟩ := (inv.waiting id).mp (head ▸ List.mem_cons_self)
      simp [TaskQueue.dequeue,full,head,here]

/-- What is handed out stood at the head of the queue. -/
theorem dequeue_some (inv : Inv q) {now : DateTime} {task : ShadowTask TaskId} (handed : (q.dequeue now).2 = some task) :
    ∃ rest, q.queue = task.id :: rest ∧ q.priority task.id = task.priority := by
  by_cases full : q.maxConcurrent ≤ q.running.len
  · simp [TaskQueue.dequeue,full] at handed
  · cases head : q.queue with
    | nil => simp [TaskQueue.dequeue,head] at handed
    | cons id rest =>
      obtain ⟨t, here, _⟩ := (inv.waiting id).mp (head ▸ List.mem_cons_self)
      simp only [TaskQueue.dequeue,if_neg full,head,here,Option.some.injEq] at handed
      subst handed
      have own : t.id = id := (inv.parked id t here).1
      refine ⟨rest, by rw [own], ?_⟩
      show ((q.tasks.lookup t.id).map ShadowTask.priority).getD 0 = t.priority
      rw [own,here]
      rfl

theorem hasCapacityToRun_iff (inv : Inv q) (now : DateTime) : q.hasCapacityToRun = true ↔ (q.dequeue now).2 ≠ none := by
  rw [Ne,dequeue_none_iff inv now]
  simp [TaskQueue.hasCapacityToRun]

theorem countOf_queued (inv : Inv q) : q.countOf .queued = q.queue.length := by
  have listed : ((q.tasks.entries.filter (fun e => e.2.status = .queued)).map Sigma.fst).Perm q.queue := by
    refine (List.perm_ext_iff_of_nodup ?_ inv.nodup).mpr fun id => ?_
    · exact q.tasks.keys_nodup.sublist (List.filter_sublist.map Sigma.fst)
    · simp only [List.mem_map,List.mem_filter,decide_eq_true_eq,inv.waiting,← Option.mem_def,AList.mem_lookup_iff]
      constructor
      · rintro ⟨⟨_, t⟩, ⟨member, waits⟩, rfl⟩
        exact ⟨t, member, waits⟩
      · rintro ⟨t, member, waits⟩
        exact ⟨⟨id, t⟩, ⟨member, waits⟩, rfl⟩
  rw [← listed.length_eq,List.length_map,TaskQueue.countOf,List.countP_eq_length_filter]

omit [DecidableEq TaskId] in
/-- A table without running tasks is counted out by the other states. -/
theorem countP_status {entries : List (Sigma fun _ : TaskId => ShadowTask TaskId)} (parked : ∀ e ∈ entries, e.2.status ≠ .running) :
    entries.length = entries.countP (fun e => e.2.status = .queued) + entries.countP (fun e => e.2.status = .completed) +
      entries.countP (fun e => e.2.status = .failed) + entries.countP (fun e => e.2.status = .cancelled) := by
  induction entries with
  | nil => rfl
  | cons e entries ih =>
    have rest := ih fun e' member => parked e' (List.mem_cons_of_mem _ member)
    have own := parked e List.mem_cons_self
    cases state : e.2.status with
    | running => exact absurd state own
    | _ =>
      simp only [List.length_cons,List.countP_cons,state,decide_true,if_true,reduceCtorEq,decide_false,Bool.false_eq_true,if_false]
      omega

/-- The report adds up. -/
theorem stats_total (inv : Inv q) : q.stats.queued = q.queue.length ∧
    q.stats.totalTasks = q.stats.queued + q.stats.running + q.stats.completed + q.stats.failed + q.stats.cancelled := by
  refine ⟨countOf_queued inv, ?_⟩
  have counted : q.tasks.len = q.countOf .queued + q.countOf .completed + q.countOf .failed + q.countOf .cancelled := by
    unfold TaskMap.len AList.keys List.keys
    rw [List.length_map]
    exact countP_status fun e member => (inv.parked e.1 e.2 (AList.mem_lookup_iff.mpr member)).2
  simp only [TaskQueue.stats]
  omega

/-- A task that waits, with this priority and so many retries. -/
def waitingTask (id : Nat) (priority : Int) (maxRetries : Nat) : ShadowTask Nat := ⟨id, .queued, none, none, none, priority, 0, maxRetries⟩

/-- Three tasks, the second one urgent. -/
def threeTasks : List (Act Nat) := [
  .enqueue (waitingTask 0 0 0), .enqueue (waitingTask 1 5 0), .enqueue (waitingTask 2 0 0)]

def threeWaiting : TaskQueue Nat × List Nat := (steps watch (TaskQueue.new Nat 3 1, []) threeTasks).getD (TaskQueue.new Nat 3 1, [])

/-- Every task the queue knows, ended ones included. -/
def TaskQueue.known (q : TaskQueue TaskId) : Nat := q.tasks.len + q.running.len

theorem known_effect (inv : Inv q) (effect : Effect q act q') : q'.known = q.known + (accepts q act).toNat ∧
    (q.known ≤ q.maxCapacity + q.maxConcurrent → q'.known ≤ q.maxCapacity + q.maxConcurrent) ∧
    q'.maxCapacity = q.maxCapacity ∧ q'.maxConcurrent = q.maxConcurrent := by
  have room := inv.room
  cases effect with
  | idle _ accepted handed => simp [accepted]
  | enter task space new =>
    have more := len_insert_new { task with status := .queued } (getTask_none new).1
    have yes : (accepts q (.enqueue task)).toNat = 1 := by simp [accepts,space]
    rw [yes]
    unfold TaskQueue.known
    exact ⟨by dsimp only; omega, fun few => by dsimp only; omega, rfl, rfl⟩
  | start now id rest task free head here =>
    have gone := len_erase here
    have more := len_insert_new { task with status := .running, startedAt := some now } (inv.apart id task here)
    unfold TaskQueue.known
    exact ⟨by simp only [accepts,Bool.toNat_false]; omega, fun few => by dsimp only; omega, rfl, rfl⟩
  | finish id result now task here =>
    have gone := len_erase here
    have more := len_insert_new (task.ended result now) (inv.lookup_of_running here)
    unfold TaskQueue.known
    exact ⟨by simp only [accepts,Bool.toNat_false]; omega, fun few => by dsimp only; omega, rfl, rfl⟩
  | retry id result now task here left =>
    have gone := len_erase here
    have more := len_insert_new (task.ended result now).retried (inv.lookup_of_running here)
    unfold TaskQueue.known
    exact ⟨by simp only [accepts,Bool.toNat_false]; omega, fun few => by dsimp only; omega, rfl, rfl⟩
  | cancelWaiting id now task inside here =>
    have same := len_insert_old (task.cancel now) here
    unfold TaskQueue.known
    exact ⟨by simp only [accepts,Bool.toNat_false]; omega, fun few => by dsimp only; omega, rfl, rfl⟩
  | cancelRunning id now task here =>
    have gone := len_erase here
    have more := len_insert_new (task.cancel now) (inv.lookup_of_running here)
    unfold TaskQueue.known
    exact ⟨by simp only [accepts,Bool.toNat_false]; omega, fun few => by dsimp only; omega, rfl, rfl⟩

/-- Nothing is waiting, nothing runs, and what has ended fills the table. -/
structure Spent (q : TaskQueue TaskId) : Prop where
  queue : q.queue = []
  running : q.running.len = 0
  full : q.maxCapacity ≤ q.tasks.len

theorem Spent.step (spent : Spent q) (taken : Shadow.step q act = some q') : q' = q := by
  obtain ⟨queue, running, full⟩ := spent
  have none_ (id : TaskId) : q.running.lookup id = none := by
    cases here : q.running.lookup id with
    | none => rfl
    | some t => exact absurd running (by have := len_erase here; omega)
  cases act with
  | enqueue task =>
    simp only [Shadow.step,Option.ite_none_left_eq_some,Option.some.injEq] at taken
    rw [← taken.2]
    simp [TaskQueue.enqueue,full]
  | dequeue now =>
    rw [← Option.some.inj taken]
    unfold TaskQueue.dequeue
    split
    · rfl
    · simp [queue]
  | completeTask id result now =>
    rw [← Option.some.inj taken]
    simp [TaskQueue.completeTask,none_]
  | cancelTask id now =>
    rw [← Option.some.inj taken]
    simp [TaskQueue.cancelTask,TaskQueue.cancelRunning,queue,none_]

structure Bounded (maxCapacity maxConcurrent : Nat) (q : TaskQueue TaskId) : Prop where
  inv : Inv q
  capacity : q.maxCapacity = maxCapacity
  slots : q.maxConcurrent = maxConcurrent
  few : q.known ≤ maxCapacity + maxConcurrent

def succeeded : TaskResult := ⟨true, none, none, [], [], 0, 0⟩
def failed : TaskResult := { succeeded with success := false }

/-- A slot more than the table holds: the second task enters while the first one runs. -/
def fillUp (now : DateTime) : List (Act Nat) := [
  .enqueue (waitingTask 0 0 0), .dequeue now, .enqueue (waitingTask 1 0 0), .completeTask 0 succeeded now,
  .enqueue (waitingTask 2 0 0), .dequeue now, .completeTask 1 failed now]

def filled (now : DateTime) : TaskQueue Nat := (steps step (TaskQueue.new Nat 1 1) (fillUp now)).getD (TaskQueue.new Nat 1 1)

/-- Whether the call hands out the task under this id. -/
def handsOut (id : TaskId) (q : TaskQueue TaskId) (act : Act TaskId) : Nat := ((served q act).any (·.id = id)).toNat

/-- How often a task may still be handed out. -/
def startsLeft {TaskId : Type} (t : ShadowTask TaskId) : Nat :=
  match t.status with
  | .queued => 1 + (t.maxRetries - t.retryCount)
  | .running => t.maxRetries - t.retryCount
  | _ => 0

def TaskQueue.startsLeft (q : TaskQueue TaskId) (id : TaskId) : Nat := ((q.getTask id).map Shadow.startsLeft).getD 0

theorem Inv.getTask_id (inv : Inv q) {id : TaskId} {task : ShadowTask TaskId} (here : q.getTask id = some task) : task.id = id := by
  unfold TaskQueue.getTask at here
  rcases Option.or_eq_some_iff.mp here with parked | ⟨_, active⟩
  · exact (inv.parked id task parked).1
  · exact (inv.active id task active).1

omit [DecidableEq TaskId] in
/-- What happens to a task uses up its starts. -/
theorem Lived.pays {before after handed : Option (ShadowTask TaskId)} (lived : Lived act before after handed) {task : ShadowTask TaskId}
    (here : before = some task) : ∃ task', after = some task' ∧ handed.isSome.toNat + Shadow.startsLeft task' ≤ Shadow.startsLeft task := by
  cases lived with
  | entered => cases here
  | started now _ waited =>
    cases here
    exact ⟨_, rfl, by simp [Shadow.startsLeft,waited]⟩
  | ended id result now _ ran =>
    cases here
    refine ⟨_, rfl, ?_⟩
    cases result with
    | mk success => cases success <;> simp [Shadow.startsLeft,ShadowTask.ended]
  | retried id result now _ ran left =>
    cases here
    refine ⟨_, rfl, ?_⟩
    simp only [Shadow.startsLeft,ShadowTask.retried,ShadowTask.ended,ran,Option.isSome_none,Bool.toNat_false]
    omega
  | cancelled id now _ live =>
    cases here
    exact ⟨_, rfl, by simp [Shadow.startsLeft,ShadowTask.cancel]⟩

omit [DecidableEq TaskId] in
theorem Lived.live {before after handed : Option (ShadowTask TaskId)} (lived : Lived act before after handed) {task : ShadowTask TaskId}
    (here : before = some task) : task.isTerminal = false := by
  cases lived with
  | entered => cases here
  | started now _ waited =>
    cases here
    simp [ShadowTask.isTerminal,waited]
  | ended id result now _ ran | retried id result now _ ran =>
    cases here
    simp [ShadowTask.isTerminal,ran]
  | cancelled id now _ live =>
    cases here
    exact live

omit [DecidableEq TaskId] in
theorem Lived.handed_id {before after handed : Option (ShadowTask TaskId)} (lived : Lived act before after handed) {task : ShadowTask TaskId}
    (out : handed = some task) : ∃ task', before = some task' ∧ task'.id = task.id := by
  cases lived with
  | started now task' waited =>
    cases out
    exact ⟨task', rfl, rfl⟩
  | _ => cases out

theorem startsLeft_effect (inv : Inv q) (effect : Effect q act q') {id : TaskId} {task : ShadowTask TaskId}
    (here : q.getTask id = some task) : (∃ task', q'.getTask id = some task') ∧
    handsOut id q act + q'.startsLeft id ≤ q.startsLeft id ∧ (task.isTerminal = true → q'.getTask id = some task) := by
  rcases inv.effect_change effect with ⟨rfl, none_⟩ | ⟨k, t, r, change, lived⟩
  · exact ⟨⟨task, here⟩, by simp [handsOut,none_], fun _ => here⟩
  · by_cases same : id = k
    · subst same
      obtain ⟨task', after, pays⟩ := lived.pays here
      have there : q'.getTask id = some task' := by rw [change.getTask,if_pos rfl,after]
      refine ⟨⟨task', there⟩, ?_, fun terminal => by rw [lived.live here] at terminal; cases terminal⟩
      have least : handsOut id q act ≤ (served q act).isSome.toNat := by
        unfold handsOut
        cases served q act with
        | none => rfl
        | some u => exact Bool.toNat_le _
      simp only [TaskQueue.startsLeft,here,there,Option.map_some,Option.getD_some]
      omega
    · have kept : q'.getTask id = q.getTask id := by rw [change.getTask,if_neg same]
      have none_ : handsOut id q act = 0 := by
        unfold handsOut
        cases out : served q act with
        | none => rfl
        | some u =>
          obtain ⟨task', before, own⟩ := lived.handed_id out
          have other : u.id ≠ id := fun eq => same (eq.symm.trans (own.symm.trans (inv.getTask_id before)))
          simp [other]
      exact ⟨⟨task, kept.trans here⟩, by simp [none_,TaskQueue.startsLeft,kept], fun _ => kept.trans here⟩

structure Knows (id : TaskId) (q : TaskQueue TaskId) : Prop where
  inv : Inv q
  known : ∃ t, q.getTask id = some t

theorem Knows.step {id : TaskId} (knows : Knows id q) (taken : Shadow.step q act = some q') : Knows id q' := by
  obtain ⟨t, here⟩ := knows.known
  exact ⟨knows.inv.step taken, (startsLeft_effect knows.inv (step_effect knows.inv taken) here).1⟩

/-- A task with one retry that fails, and fails again. -/
def failTwice (now : DateTime) : List (Act Nat) := [
  .dequeue now, .completeTask 0 failed now, .dequeue now, .completeTask 0 failed now, .dequeue now]

def retrying : TaskQueue Nat := (TaskQueue.new Nat 1 1).enqueue (waitingTask 0 0 1) |>.1

end

end Zaion.Shadow
