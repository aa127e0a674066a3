import Zaion.Lib.Steps
import Mathlib.Data.List.AList

/-! `TaskScheduler`: queues of a session, background tasks and the history, each behind its
lock. A call takes the clock reading it makes as an argument, in seconds. -/
namespace Zaion.Schedule

open Lib

inductive TaskMode where
  | queue
  | background
  deriving DecidableEq, Repr

inductive TaskPriority where
  | low
  | normal
  | high
  | urgent
  deriving DecidableEq, Repr

inductive TaskStatus where
  | pending
  | running
  | completed
  | failed
  | cancelled
  deriving DecidableEq, Repr

structure ScheduledTask where
  taskId : String
  sessionKey : String
  prompt : String
  mode : TaskMode
  priority : TaskPriority
  status : TaskStatus
  createdAt : Nat
  startedAt : Option Nat
  completedAt : Option Nat
  error : Option String
  deriving DecidableEq

namespace ScheduledTask

/-- The id is the mode, the second and eight digits of a uuid. -/
def new (uuid sessionKey prompt : String) (mode : TaskMode) (now : Nat) : ScheduledTask where
  taskId := (match mode with | .queue => "q" | .background => "bg") ++ "_" ++ toString now ++ "_" ++
    String.ofList (uuid.toList.take 8)
  sessionKey := sessionKey
  prompt := prompt
  mode := mode
  priority := .normal
  status := .pending
  createdAt := now
  startedAt := none
  completedAt := none
  error := none

def withPriority (task : ScheduledTask) (priority : TaskPriority) : ScheduledTask := { task with priority := priority }

def markRunning (task : ScheduledTask) (now : Nat) : ScheduledTask :=
  { task with status := .running, startedAt := some now }

def markCompleted (task : ScheduledTask) (now : Nat) : ScheduledTask :=
  { task with status := .completed, completedAt := some now }

def markFailed (task : ScheduledTask) (error : String) (now : Nat) : ScheduledTask :=
  { task with status := .failed, error := some error, completedAt := some now }

def markCancelled (task : ScheduledTask) (now : Nat) : ScheduledTask :=
  { task with status := .cancelled, completedAt := some now }

end ScheduledTask

/-- The hash maps of the source, as association lists without repeated keys. -/
structure TaskScheduler where
  queueTasks : AList (fun _ : String => List ScheduledTask)
  backgroundTasks : AList (fun _ : String => ScheduledTask)
  history : AList (fun _ : String => List ScheduledTask)

namespace TaskScheduler

def new : TaskScheduler := ⟨∅, ∅, ∅⟩

/-- The queue of a session, empty when it has none. -/
def queueOf (s : TaskScheduler) (sessionKey : String) : List ScheduledTask := (s.queueTasks.lookup sessionKey).getD []

def historyOf (s : TaskScheduler) (sessionKey : String) : List ScheduledTask := (s.history.lookup sessionKey).getD []

def enqueue (s : TaskScheduler) (task : ScheduledTask) : TaskScheduler :=
  match task.mode with
  | .queue => { s with queueTasks := s.queueTasks.insert task.sessionKey (s.queueOf task.sessionKey ++ [task]) }
  | .background => { s with backgroundTasks := s.backgroundTasks.insert task.taskId task }

def popQueueTask (s : TaskScheduler) (sessionKey : String) : TaskScheduler × Option ScheduledTask :=
  match s.queueTasks.lookup sessionKey with
  | some (task :: rest) => ({ s with queueTasks := s.queueTasks.insert sessionKey rest }, some task)
  | _ => (s, none)

def getBackgroundTask (s : TaskScheduler) (taskId : String) : Option ScheduledTask := s.backgroundTasks.lookup taskId

def updateBackgroundTask (s : TaskScheduler) (task : ScheduledTask) : TaskScheduler :=
  { s with backgroundTasks := s.backgroundTasks.insert task.taskId task }

/-- `add_to_history`: the last hundred of a session are kept. -/
def addToHistory (s : TaskScheduler) (task : ScheduledTask) : TaskScheduler :=
  let sessionHistory := s.historyOf task.sessionKey ++ [task]
  { s with history := s.history.insert task.sessionKey (sessionHistory.drop (sessionHistory.length - 100)) }

def completeBackgroundTask (s : TaskScheduler) (taskId : String) : TaskScheduler × Except String Unit :=
  match s.backgroundTasks.lookup taskId with
  | some task => ({ s with backgroundTasks := s.backgroundTasks.erase taskId }.addToHistory task, .ok ())
  | none => (s, .error ("Background task not found: " ++ taskId))

def hasId (taskId : String) (task : ScheduledTask) : Bool := decide (task.taskId = taskId)

/-- The queue a task stands in, the first the map comes to. -/
def findQueued (s : TaskScheduler) (taskId : String) : Option (String × List ScheduledTask) :=
  (s.queueTasks.entries.find? (fun entry => entry.2.any (hasId taskId))).map (fun entry => (entry.1, entry.2))

def cancelTask (s : TaskScheduler) (taskId : String) (now : Nat) : TaskScheduler × Except String Unit :=
  match s.findQueued taskId with
  | some (sessionKey, queue) =>
    match queue.find? (hasId taskId) with
    | some task => ({ s with queueTasks := s.queueTasks.insert sessionKey (queue.eraseP (hasId taskId)) }.addToHistory
        (task.markCancelled now), .ok ())
    | none => (s, .ok ())
  | none =>
    match s.backgroundTasks.lookup taskId with
    | some task =>
      ({ s with backgroundTasks := s.backgroundTasks.erase taskId }.addToHistory (task.markCancelled now), .ok ())
    | none => (s, .error ("Task not found: " ++ taskId))

def clearQueue (s : TaskScheduler) (sessionKey : String) (now : Nat) : TaskScheduler × Nat :=
  match s.queueTasks.lookup sessionKey with
  | some queue =>
    (queue.foldl (fun s task => s.addToHistory (task.markCancelled now))
      { s with queueTasks := s.queueTasks.erase sessionKey }, queue.length)
  | none => (s, 0)

end TaskScheduler

/-! Workers and users at one scheduler, each call one step. -/

/-- Beside the scheduler: the copies workers hold, and what has happened so far. `entered`
lists what went to the history, `finished` what was ever cancelled or completed. -/
structure Board where
  scheduler : TaskScheduler
  held : List ScheduledTask
  enqueued : List ScheduledTask
  popped : List (String × ScheduledTask)
  entered : List String
  finished : List String

inductive TaskCall where
  | enqueue (task : ScheduledTask)
  | popQueueTask (sessionKey : String)
  | getBackgroundTask (taskId : String)
  | updateBackgroundTask (copy : Nat) (modified : ScheduledTask)
  | completeBackgroundTask (taskId : String)
  | cancelTask (taskId : String) (now : Nat)
  | clearQueue (sessionKey : String) (now : Nat)

def TaskStatus.active : TaskStatus → Bool
  | .pending => true
  | .running => true
  | _ => false

def TaskStatus.settled : TaskStatus → Bool
  | .completed => true
  | .cancelled => true
  | _ => false

namespace Board

def new : Board := ⟨.new, [], [], [], [], []⟩

/-- Ids that leave the queues or the background map for the history. -/
def leave (b : Board) (scheduler : TaskScheduler) (ids : List String) : Board :=
  { b with scheduler := scheduler, entered := b.entered ++ ids, finished := b.finished ++ ids }

/-- A task enters with an id no task had before; a modified copy keeps the id it was read
with. -/
def step (b : Board) : TaskCall → Option Board
  | .enqueue task =>
    if task.taskId ∈ b.enqueued.map ScheduledTask.taskId ∨ task.status ≠ .pending then none
    else some { b with scheduler := b.scheduler.enqueue task, enqueued := b.enqueued ++ [task] }
  | .popQueueTask sessionKey =>
    match b.scheduler.popQueueTask sessionKey with
    | (scheduler, some task) => some { b with scheduler := scheduler, popped := b.popped ++ [(sessionKey, task)] }
    | (scheduler, none) => some { b with scheduler := scheduler }
  | .getBackgroundTask taskId =>
    match b.scheduler.getBackgroundTask taskId with
    | some task => some { b with held := b.held ++ [task] }
    | none => some b
  | .updateBackgroundTask copy modified =>
    if (b.held[copy]?).map ScheduledTask.taskId = some modified.taskId then
      some { b with
        scheduler := b.scheduler.updateBackgroundTask modified
        finished := if modified.status.settled then b.finished ++ [modified.taskId] else b.finished }
    else none
  | .completeBackgroundTask taskId =>
    match b.scheduler.completeBackgroundTask taskId with
    | (scheduler, .ok _) => some (b.leave scheduler [taskId])
    | (scheduler, .error _) => some { b with scheduler := scheduler }
  | .cancelTask taskId now =>
    match b.scheduler.cancelTask taskId now with
    | (scheduler, .ok _) => some (b.leave scheduler [taskId])
    | (scheduler, .error _) => some { b with scheduler := scheduler }
  | .clearQueue sessionKey now =>
    some (b.leave (b.scheduler.clearQueue sessionKey now).1
      ((b.scheduler.queueOf sessionKey).map ScheduledTask.taskId))

end Board

end Zaion.Schedule
