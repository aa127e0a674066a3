import Zaion.Lib.Steps
import Zaion.Turn.Workers

/-! The worker pool of the outbox dispatcher: its start barrier, the admission of appends, the health record and the
shutdown. A critical section is one step, the store of a flag another, and steps of workers and callers come in any
order. -/
namespace Zaion.Turn.Dispatcher

open Lib

inductive Lifecycle where
  | running
  | stopping
  | stopped
  | failed
  deriving DecidableEq, Repr

structure LastError where
  tenantId : Option String
  outboxId : Option String
  occurredAt : DateTime
  failure : OutboxDispatchFailure
  deriving DecidableEq

/-- What workers report; only a shutdown reports its own timeout. -/
structure WorkerError extends LastError where
  ofWorker : failure.code ≠ .shutdownTimeout

structure RuntimeHealth where
  lifecycle : Lifecycle
  runningWorkers : Nat
  successes : Nat
  retries : Nat
  deadLetters : Nat
  lastError : Option LastError
  deriving DecidableEq

structure AppendAdmissionState where
  accepting : Bool
  inFlight : Nat
  deriving DecidableEq

structure Shared where
  shutdown : Bool
  startupReadyWorkers : Nat
  startupReleased : Bool
  appendAdmission : AppendAdmissionState
  health : RuntimeHealth
  deriving DecidableEq

/-- `saturating_add(1)` of a counter of 64 bits. -/
def bump (n : Nat) : Nat := min (n + 1) 18446744073709551615

inductive Report where
  | delivered
  | retried (error : WorkerError)
  | deadLettered (error : WorkerError)
  | recorded (error : WorkerError)

namespace RuntimeHealth

def noted (h : RuntimeHealth) (error : LastError) : RuntimeHealth := { h with lastError := some error }

def report (h : RuntimeHealth) : Report → RuntimeHealth
  | .delivered => { h with successes := bump h.successes }
  | .retried error => { h with retries := bump h.retries }.noted error.toLastError
  | .deadLettered error => { h with deadLetters := bump h.deadLetters }.noted error.toLastError
  | .recorded error => h.noted error.toLastError

/-- `fail_dispatcher`, under its lock; the flag is stored after it. -/
def fail (h : RuntimeHealth) (error : LastError) : RuntimeHealth := { h with lifecycle := .failed }.noted error

end RuntimeHealth

def infrastructure (message : String) : OutboxDispatchFailure := ⟨.claim, .fatal, .infrastructureFailure, message⟩

/-- `worker_stopped`. -/
def workerStopped (h : RuntimeHealth) (now : DateTime) : RuntimeHealth :=
  let left := { h with runningWorkers := h.runningWorkers - 1 }
  if left.runningWorkers = 0 ∧ left.lifecycle = .running then
    left.fail ⟨none, none, now, infrastructure "all outbox dispatcher workers exited without a shutdown request"⟩
  else left

/-- `admit_append`. -/
def admitAppend (s : Shared) : Option Shared :=
  if s.appendAdmission.accepting = false ∨ s.shutdown = true then none
  else some { s with appendAdmission.inFlight := bump s.appendAdmission.inFlight }

/-- `request_shutdown`; it holds the admission lock and the health lock throughout. -/
def requestShutdown (s : Shared) : Shared :=
  let closed := { s with appendAdmission.accepting := false }
  if s.shutdown = true then closed
  else
    let lifecycle := if s.health.lifecycle = .running then Lifecycle.stopping else s.health.lifecycle
    { closed with shutdown := true, health.lifecycle := lifecycle }

/-- Where a worker is. `failing` is between the two halves of `fail_dispatcher`; `leaving` still has its guard to drop. -/
inductive Place where
  | spawned
  | counted
  | waiting
  | looping
  | failing (panicking : Bool)
  | leaving (panicking : Bool)
  | finished (panicked : Bool)
  deriving DecidableEq, Repr

/-- A worker and whether it holds an `AppendPermit`. -/
structure Worker where
  place : Place
  permit : Bool
  deriving DecidableEq, Repr

inductive Move where
  | enter
  | arrive
  | pass
  | report (news : Report)
  | acquire
  | dropPermit
  | fail (error : WorkerError)
  | panic (now : DateTime)
  | raise
  | leave
  | stop (now : DateTime)

def panicError (now : DateTime) : LastError := ⟨none, none, now, infrastructure "outbox dispatcher worker panicked"⟩

/-- One step of a worker. A panic drops the permit before the guard, whose drop fails the dispatcher first. -/
def moveWorker (s : Shared) (w : Worker) (move : Move) : Option (Shared × Worker) :=
  match w.place, move with
  | .spawned, .enter =>
    some ({ s with health.runningWorkers := bump s.health.runningWorkers }, { w with place := .counted })
  | .counted, .arrive =>
    some ({ s with startupReadyWorkers := bump s.startupReadyWorkers }, { w with place := .waiting })
  | .waiting, .pass => if s.startupReleased || s.shutdown then some (s, { w with place := .looping }) else none
  | .looping, .report news => some ({ s with health := s.health.report news }, w)
  | .looping, .acquire =>
    if w.permit then none
    else match admitAppend s with
      | some s' => some (s', { w with permit := true })
      | none => some (s, w)
  | .looping, .dropPermit =>
    if w.permit then
      some ({ s with appendAdmission.inFlight := s.appendAdmission.inFlight - 1 }, { w with permit := false })
    else none
  | .looping, .fail error => some ({ s with health := s.health.fail error.toLastError }, { w with place := .failing false })
  | .looping, .panic now =>
    if w.permit then none else some ({ s with health := s.health.fail (panicError now) }, { w with place := .failing true })
  | .failing panicking, .raise =>
    some ({ s with shutdown := true }, { w with place := if panicking then .leaving true else .looping })
  | .looping, .leave => if s.shutdown && !w.permit then some (s, { w with place := .leaving false }) else none
  | .leaving panicking, .stop now =>
    some ({ s with health := workerStopped s.health now }, { w with place := .finished panicking })
  | _, _ => none

inductive ShutdownError where
  | workerPanicked
  | shutdownTimeout (remainingWorkers : Nat)
  | workerFailed (message : String)
  deriving DecidableEq

/-- A call of `shutdown_before`. -/
inductive Call where
  | idle
  | requested
  | looked (remaining : Nat)
  | returned (result : Except ShutdownError Unit)
  deriving DecidableEq

structure Pool where
  shared : Shared
  workers : List Worker
  workerPanicked : Bool
  calls : Nat → Call

/-- `validate` lets only these numbers of workers through. -/
abbrev WorkerCount := { n : Nat // 1 ≤ n ∧ n ≤ 32 }

def start (count : WorkerCount) : Pool where
  shared := ⟨false, 0, false, ⟨true, 0⟩, ⟨.running, 0, 0, 0, 0, none⟩⟩
  workers := List.replicate count ⟨.spawned, false⟩
  workerPanicked := false
  calls := fun _ => .idle

def Place.isFinished : Place → Bool
  | .finished _ => true
  | _ => false

def LastError.isTimeout (error : LastError) : Bool := error.failure.code = .shutdownTimeout

def timeoutError (remaining : Nat) (now : DateTime) : LastError :=
  ⟨none, none, now, ⟨.resolveSigner, .fatal, .shutdownTimeout,
    "dispatcher shutdown deadline expired with " ++ toString remaining ++ " worker(s) still running"⟩⟩

/-- The health a call of `shutdown_before` leaves. -/
def concludeHealth (h : RuntimeHealth) (panicked : Bool) (remaining : Nat) (now : DateTime) : RuntimeHealth :=
  if panicked = true ∨ 0 < remaining then
    let failed := { h with lifecycle := .failed }
    if 0 < remaining ∧ h.lastError.all LastError.isTimeout = true then failed.noted (timeoutError remaining now) else failed
  else if h.lifecycle ≠ .failed ∨ h.lastError.any LastError.isTimeout = true then { h with lifecycle := .stopped }
  else h

/-- .. and what it returns. -/
def concludeResult (h : RuntimeHealth) (panicked : Bool) (remaining : Nat) : Except ShutdownError Unit :=
  if panicked then .error .workerPanicked
  else if 0 < remaining then .error (.shutdownTimeout remaining)
  else if h.lifecycle = .failed then .error (.workerFailed
    ((h.lastError.map (·.failure.message)).getD "worker pool failed without structured detail"))
  else .ok ()

inductive Act where
  | worker (w : Nat) (move : Move)
  | release
  | requestShutdown (c : Nat)
  | look (c : Nat)
  | conclude (c : Nat) (now : DateTime)

/-- One step of the pool. The last look of a call joins the workers that have finished; its deadline may come at any time. -/
def step (p : Pool) : Act → Option Pool
  | .worker w move =>
    match p.workers[w]? with
    | none => none
    | some worker => (moveWorker p.shared worker move).map fun (shared, worker) =>
      { p with shared, workers := p.workers.set w worker }
  | .release =>
    if p.workers.length ≤ p.shared.startupReadyWorkers then some { p with shared.startupReleased := true } else none
  | .requestShutdown c =>
    if p.shared.startupReleased then
      some { p with shared := requestShutdown p.shared, calls := Function.update p.calls c .requested }
    else none
  | .look c =>
    match p.calls c with
    | .requested | .looked _ =>
      some { p with
        workerPanicked := p.workerPanicked || p.workers.any (·.place = .finished true)
        calls := Function.update p.calls c (.looked (p.workers.countP (!·.place.isFinished))) }
    | _ => none
  | .conclude c now =>
    match p.calls c with
    | .looked remaining =>
      let health := concludeHealth p.shared.health p.workerPanicked remaining now
      some { p with
        shared.health := health
        calls := Function.update p.calls c (.returned (concludeResult health p.workerPanicked remaining)) }
    | _ => none

variable {s s' : Shared} {w w' : Worker} {p p' : Pool} {count : WorkerCount}

def Place.isCounted : Place → Bool
  | .spawned | .finished _ => false
  | _ => true

/-- All a move does. -/
inductive Moved (s : Shared) (w : Worker) : Shared → Worker → Prop
  | enter (here : w.place = .spawned) :
      Moved s w { s with health.runningWorkers := bump s.health.runningWorkers } { w with place := .counted }
  | arrive (here : w.place = .counted) :
      Moved s w { s with startupReadyWorkers := bump s.startupReadyWorkers } { w with place := .waiting }
  | pass (here : w.place = .waiting) : Moved s w s { w with place := .looping }
  | report (here : w.place = .looping) (news : Report) : Moved s w { s with health := s.health.report news } w
  | acquire (here : w.place = .looping) (free : w.permit = false) (accepting : s.appendAdmission.accepting = true)
      (quiet : s.shutdown = false) :
      Moved s w { s with appendAdmission.inFlight := bump s.appendAdmission.inFlight } { w with permit := true }
  | refused (here : w.place = .looping) : Moved s w s w
  | dropPermit (here : w.place = .looping) (held : w.permit = true) :
      Moved s w { s with appendAdmission.inFlight := s.appendAdmission.inFlight - 1 } { w with permit := false }
  | fail (here : w.place = .looping) (error : WorkerError) :
      Moved s w { s with health := s.health.fail error.toLastError } { w with place := .failing false }
  | panic (here : w.place = .looping) (free : w.permit = false) (now : DateTime) :
      Moved s w { s with health := s.health.fail (panicError now) } { w with place := .failing true }
  | raise (panicking : Bool) (here : w.place = .failing panicking) :
      Moved s w { s with shutdown := true } { w with place := if panicking then .leaving true else .looping }
  | leave (here : w.place = .looping) (free : w.permit = false) (closing : s.shutdown = true) :
      Moved s w s { w with place := .leaving false }
  | stop (panicking : Bool) (here : w.place = .leaving panicking) (now : DateTime) :
      Moved s w { s with health := workerStopped s.health now } { w with place := .finished panicking }

theorem admitAppend_some (admitted : admitAppend s = some s') : s.appendAdmission.accepting = true ∧ s.shutdown = false ∧
    s' = { s with appendAdmission.inFlight := bump s.appendAdmission.inFlight } := by
  unfold admitAppend at admitted
  split at admitted
  · cases admitted
  · rename_i open_
    simp only [not_or,Bool.not_eq_false,Bool.not_eq_true] at open_
    exact ⟨open_.1, open_.2, (Option.some.inj admitted).symm⟩

theorem moveWorker_moved {move : Move} (moves : moveWorker s w move = some (s', w')) : Moved s w s' w' := by
  unfold moveWorker at moves
  split at moves
  · cases moves
    exact .enter ‹_›
  · cases moves
    exact .arrive ‹_›
  · split at moves
    · cases moves
      exact .pass ‹_›
    · cases moves
  · cases moves
    exact .report ‹_› _
  · split at moves
    · cases moves
    · rename_i free
      split at moves
      · rename_i admitted
        cases moves
        obtain ⟨accepting, quiet, rfl⟩ := admitAppend_some admitted
        exact .acquire ‹_› (Bool.eq_false_iff.mpr free) accepting quiet
      · cases moves
        exact .refused ‹_›
  · split at moves
    · cases moves
      exact .dropPermit ‹_› ‹_›
    · cases moves
  · cases moves
    exact .fail ‹_› _
  · split at moves
    · cases moves
    · rename_i free
      cases moves
      exact .panic ‹_› (Bool.eq_false_iff.mpr free) _
  · cases moves
    exact .raise _ ‹_›
  · split at moves
    · rename_i closing
      simp only [Bool.and_eq_true,Bool.not_eq_eq_eq_not,Bool.not_true] at closing
      cases moves
      exact .leave ‹_› closing.2 closing.1
    · cases moves
  · cases moves
    exact .stop _ ‹_› _
  · cases moves

/-- All a step does. -/
inductive Stepped (p : Pool) : Pool → Prop
  | worker (i : Nat) (w : Worker) (here : p.workers[i]? = some w) (s' : Shared) (w' : Worker) (moved : Moved p.shared w s' w') :
      Stepped p { p with shared := s', workers := p.workers.set i w' }
  | release : Stepped p { p with shared.startupReleased := true }
  | requestShutdown (c : Nat) :
      Stepped p { p with shared := requestShutdown p.shared, calls := Function.update p.calls c .requested }
  | look (c : Nat) : Stepped p { p with
      workerPanicked := p.workerPanicked || p.workers.any (·.place = .finished true)
      calls := Function.update p.calls c (.looked (p.workers.countP (!·.place.isFinished))) }
  | conclude (c : Nat) (now : DateTime) (remaining : Nat) (looked : p.calls c = .looked remaining) : Stepped p { p with
      shared.health := concludeHealth p.shared.health p.workerPanicked remaining now
      calls := Function.update p.calls c (.returned
        (concludeResult (concludeHealth p.shared.health p.workerPanicked remaining now) p.workerPanicked remaining)) }

theorem step_worker {i : Nat} {move : Move} (taken : step p (.worker i move) = some p') :
    ∃ w, p.workers[i]? = some w ∧ ∃ s' w', moveWorker p.shared w move = some (s', w') ∧
      p' = { p with shared := s', workers := p.workers.set i w' } := by
  simp only [step] at taken
  split at taken
  · cases taken
  · rename_i w here
    obtain ⟨⟨s', w'⟩, moves, rfl⟩ := Option.map_eq_some_iff.mp taken
    exact ⟨w, here, s', w', moves, rfl⟩

theorem step_stepped {act : Act} (taken : step p act = some p') : Stepped p p' := by
  cases act with
  | worker i move =>
    obtain ⟨w, here, s', w', moves, rfl⟩ := step_worker taken
    exact .worker i w here s' w' (moveWorker_moved moves)
  | release =>
    simp only [step,Option.ite_none_right_eq_some,Option.some.injEq] at taken
    exact taken.2 ▸ .release
  | requestShutdown c =>
    simp only [step,Option.ite_none_right_eq_some,Option.some.injEq] at taken
    exact taken.2 ▸ .requestShutdown c
  | look c =>
    simp only [step] at taken
    split at taken
    · exact Option.some.inj taken ▸ .look c
    · exact Option.some.inj taken ▸ .look c
    · cases taken
  | conclude c now =>
    simp only [step] at taken
    split at taken
    · exact Option.some.inj taken ▸ .conclude c now _ ‹_›
    · cases taken

theorem countP_set_add {l : List α} {i : Nat} {old : α} (here : l[i]? = some old) (new : α) (q : α → Bool) :
    (l.set i new).countP q + (if q old then 1 else 0) = l.countP q + (if q new then 1 else 0) := by
  obtain ⟨inside, rfl⟩ := List.getElem?_eq_some_iff.mp here
  have counted : q l[i] = true → 0 < l.countP q := fun holds => List.countP_pos_iff.mpr ⟨_, List.getElem_mem inside, holds⟩
  rw [List.countP_set inside]
  by_cases holds : q l[i] = true
  · have := counted holds
    simp only [holds,if_true]
    omega
  · simp [holds]

theorem bump_eq {n : Nat} (small : n < 18446744073709551615) : bump n = n + 1 := by
  unfold bump
  omega

def Place.isUp : Place → Bool
  | .spawned | .counted | .waiting | .looping => true
  | _ => false

/-- Permits and counted workers are what the shared counters say. -/
structure Counts (count : WorkerCount) (p : Pool) : Prop where
  length : p.workers.length = count
  inFlight : p.shared.appendAdmission.inFlight = p.workers.countP Worker.permit
  running : p.shared.health.runningWorkers = p.workers.countP (·.place.isCounted)

/-- A dispatcher that says it is running is not closing, and all its workers are up. -/
structure Honest (p : Pool) : Prop where
  closed : p.shared.appendAdmission.accepting = false → p.shared.shutdown = true
  running : p.shared.health.lifecycle = .running → p.shared.shutdown = false ∧ ∀ w ∈ p.workers, w.place.isUp = true
  permits : ∀ w ∈ p.workers, w.permit = true → w.place = .looping ∨ w.place = .failing false

/-- What calls of `shutdown_before` know of the workers. -/
structure Known (p : Pool) : Prop where
  looked : ∀ c remaining, p.calls c = .looked remaining → p.workers.countP (!·.place.isFinished) ≤ remaining ∧
    (remaining = 0 → p.workerPanicked = false → ∀ w ∈ p.workers, w.place = .finished false)
  returned : ∀ c, p.calls c = .returned (.ok ()) → ∀ w ∈ p.workers, w.place = .finished false

@[simp] theorem RuntimeHealth.report_lifecycle (h : RuntimeHealth) (news : Report) : (h.report news).lifecycle = h.lifecycle := by
  cases news <;> rfl

@[simp] theorem RuntimeHealth.report_runningWorkers (h : RuntimeHealth) (news : Report) :
    (h.report news).runningWorkers = h.runningWorkers := by
  cases news <;> rfl

@[simp] theorem workerStopped_runningWorkers (h : RuntimeHealth) (now : DateTime) :
    (workerStopped h now).runningWorkers = h.runningWorkers - 1 := by
  unfold workerStopped
  dsimp only
  split <;> rfl

theorem workerStopped_running {h : RuntimeHealth} {now : DateTime} (running : (workerStopped h now).lifecycle = .running) :
    h.lifecycle = .running := by
  unfold workerStopped at running
  dsimp only at running
  split at running
  · cases running
  · exact running

@[simp] theorem requestShutdown_runningWorkers (s : Shared) :
    (requestShutdown s).health.runningWorkers = s.health.runningWorkers := by
  unfold requestShutdown
  split <;> rfl

@[simp] theorem requestShutdown_shutdown (s : Shared) : (requestShutdown s).shutdown = true := by
  unfold requestShutdown
  split
  · assumption
  · rfl

@[simp] theorem requestShutdown_admission (s : Shared) :
    (requestShutdown s).appendAdmission = { s.appendAdmission with accepting := false } := by
  unfold requestShutdown
  split <;> rfl

/-- Only a first request finds the dispatcher running, and it leaves it stopping. -/
theorem requestShutdown_running (running : (requestShutdown s).health.lifecycle = .running) :
    s.shutdown = true ∧ s.health.lifecycle = .running := by
  unfold requestShutdown at running
  split at running
  · exact ⟨‹_›, running⟩
  · simp only at running
    split at running
    · cases running
    · contradiction

@[simp] theorem concludeHealth_runningWorkers (h : RuntimeHealth) (panicked : Bool) (remaining : Nat) (now : DateTime) :
    (concludeHealth h panicked remaining now).runningWorkers = h.runningWorkers := by
  unfold concludeHealth
  repeat' (split <;> try rfl)

theorem concludeHealth_not_running {h : RuntimeHealth} {panicked : Bool} {remaining : Nat} {now : DateTime} :
    (concludeHealth h panicked remaining now).lifecycle ≠ .running := by
  unfold concludeHealth
  split
  · split <;> simp [RuntimeHealth.noted]
  · split
    · simp
    · rename_i failed
      simp only [not_or,not_not] at failed
      simp [failed.1]

/-- A finished worker does not move. -/
theorem Moved.unfinished (moved : Moved s w s' w') : w.place.isFinished = false := by
  cases moved <;> simp_all [Place.isFinished]

theorem Moved.unclosed (moved : Moved s w s' w') : s'.appendAdmission.accepting = s.appendAdmission.accepting ∧
    (s.shutdown = true → s'.shutdown = true) := by
  cases moved <;> simp_all

/-- What a move does to the permits in flight. -/
theorem Moved.inFlight (moved : Moved s w s' w') (small : s.appendAdmission.inFlight < 18446744073709551615)
    (own : w.permit = true → 0 < s.appendAdmission.inFlight) :
    s'.appendAdmission.inFlight + (if w.permit then 1 else 0) = s.appendAdmission.inFlight + (if w'.permit then 1 else 0) := by
  cases moved with
  | acquire here free => simp [free,bump_eq small]
  | dropPermit here held =>
    have := own held
    simp only [held,if_true,Bool.false_eq_true,if_false]
    omega
  | _ => simp

/-- .. and to the workers that are counted. -/
theorem Moved.runningWorkers (moved : Moved s w s' w') (small : s.health.runningWorkers < 18446744073709551615)
    (own : w.place.isCounted = true → 0 < s.health.runningWorkers) :
    s'.health.runningWorkers + (if w.place.isCounted then 1 else 0) =
      s.health.runningWorkers + (if w'.place.isCounted then 1 else 0) := by
  cases moved with
  | enter here => simp [here,Place.isCounted,bump_eq small]
  | stop panicking here =>
    have := own (by simp [here,Place.isCounted])
    simp only [workerStopped_runningWorkers,here,Place.isCounted,if_true,Bool.false_eq_true,if_false]
    omega
  | raise panicking here => cases panicking <;> simp [here,Place.isCounted]
  | _ => simp_all [Place.isCounted,RuntimeHealth.fail,RuntimeHealth.noted]

theorem Counts.step (counts : Counts count p) (stepped : Stepped p p') : Counts count p' := by
  obtain ⟨length, inFlight, running⟩ := counts
  have few : count.val ≤ 32 := count.property.2
  cases stepped with
  | worker i w here s' w' moved =>
    have member := List.mem_of_getElem? here
    have permits : p.workers.countP Worker.permit ≤ p.workers.length := List.countP_le_length
    have counted : p.workers.countP (·.place.isCounted) ≤ p.workers.length := List.countP_le_length
    have flights := moved.inFlight (by omega) fun held => inFlight ▸ List.countP_pos_iff.mpr ⟨w, member, held⟩
    have workers := moved.runningWorkers (by omega) fun up => running ▸ List.countP_pos_iff.mpr ⟨w, member, up⟩
    have permits' := countP_set_add here w' Worker.permit
    have counted' := countP_set_add here w' (fun w => w.place.isCounted)
    refine ⟨by simpa using length, ?_, ?_⟩
    · show s'.appendAdmission.inFlight = (p.workers.set i w').countP Worker.permit
      omega
    · show s'.health.runningWorkers = (p.workers.set i w').countP (·.place.isCounted)
      omega
  | release => exact ⟨length, inFlight, running⟩
  | requestShutdown c => exact ⟨length, by simpa using inFlight, by simpa using running⟩
  | look c => exact ⟨length, inFlight, running⟩
  | conclude c now remaining looked => exact ⟨length, inFlight, by simpa using running⟩

theorem Honest.moved (honest : Honest p) {i : Nat} (here : p.workers[i]? = some w) (moved : Moved p.shared w s' w') :
    Honest { p with shared := s', workers := p.workers.set i w' } := by
  have member := List.mem_of_getElem? here
  obtain ⟨accepting, stays⟩ := moved.unclosed
  refine ⟨fun closed => stays (honest.closed (accepting ▸ closed)), ?_, ?_⟩
  · intro running
    have before : p.shared.health.lifecycle = .running := by
      cases moved with
      | stop => exact workerStopped_running running
      | fail => cases running
      | panic => cases running
      | report => simpa using running
      | _ => exact running
    obtain ⟨quiet, up⟩ := honest.running before
    have own := up w member
    have after : s'.shutdown = false ∧ w'.place.isUp = true := by
      cases moved with
      | fail => cases running
      | panic => cases running
      | raise panicking here' => rw [here'] at own; cases own
      | stop panicking here' => rw [here'] at own; cases own
      | leave here' free closing => rw [quiet] at closing; cases closing
      | _ => exact ⟨quiet, by first | rfl | exact own⟩
    refine ⟨after.1, fun v inside => ?_⟩
    rcases List.mem_or_eq_of_mem_set inside with old | rfl
    · exact up v old
    · exact after.2
  · intro v inside held
    rcases List.mem_or_eq_of_mem_set inside with old | rfl
    · exact honest.permits v old held
    · have own := honest.permits w member
      cases moved with
      | raise panicking here' => cases panicking <;> simp_all
      | _ => simp_all

theorem Honest.step (honest : Honest p) (stepped : Stepped p p') : Honest p' := by
  cases stepped with
  | worker i w here s' w' moved => exact honest.moved here moved
  | release => exact ⟨honest.closed, honest.running, honest.permits⟩
  | requestShutdown c =>
    refine ⟨fun _ => requestShutdown_shutdown _, ?_, honest.permits⟩
    intro running
    obtain ⟨closing, before⟩ := requestShutdown_running running
    exact absurd closing (by simp [(honest.running before).1])
  | look c => exact ⟨honest.closed, honest.running, honest.permits⟩
  | conclude c now remaining looked =>
    exact ⟨honest.closed, fun running => absurd running concludeHealth_not_running, honest.permits⟩

/-- No call returns `Ok` before the last worker has finished. -/
theorem concludeResult_ok {h : RuntimeHealth} {panicked : Bool} {remaining : Nat}
    (ok : concludeResult h panicked remaining = .ok ()) : panicked = false ∧ remaining = 0 ∧ h.lifecycle ≠ .failed := by
  unfold concludeResult at ok
  split at ok
  · cases ok
  · rename_i calm
    split at ok
    · cases ok
    · split at ok
      · cases ok
      · exact ⟨Bool.eq_false_iff.mpr calm, by omega, ‹_›⟩

theorem unfinished_of_place {v : Worker} {panicked : Bool} (finished : v.place = .finished panicked) : v.place.isFinished = true := by
  rw [finished]
  rfl

theorem Known.moved (known : Known p) {i : Nat} (here : p.workers[i]? = some w) (moved : Moved p.shared w s' w') :
    Known { p with shared := s', workers := p.workers.set i w' } := by
  have own : w.place.isFinished = false := moved.unfinished
  have unfinished : 0 < p.workers.countP (!·.place.isFinished) :=
    List.countP_pos_iff.mpr ⟨w, List.mem_of_getElem? here, by simp [own]⟩
  refine ⟨?_, ?_⟩
  · intro c remaining looked
    obtain ⟨many, _⟩ := known.looked c remaining looked
    have counted := countP_set_add here w' (fun v => !v.place.isFinished)
    have fewer : (p.workers.set i w').countP (!·.place.isFinished) ≤ p.workers.countP (!·.place.isFinished) := by
      simp only [own,Bool.not_false,if_true] at counted
      split at counted <;> omega
    exact ⟨fewer.trans many, fun none_ => by omega⟩
  · intro c returned
    have finished := unfinished_of_place (known.returned c returned w (List.mem_of_getElem? here))
    rw [own] at finished
    cases finished

theorem Known.step (known : Known p) (stepped : Stepped p p') : Known p' := by
  cases stepped with
  | worker i w here s' w' moved => exact known.moved here moved
  | release => exact ⟨known.looked, known.returned⟩
  | requestShutdown c =>
    refine ⟨fun c' remaining looked => ?_, fun c' returned => ?_⟩
    · rcases eq_or_ne c' c with rfl | other
      · simp at looked
      · exact known.looked c' remaining (by simpa [other] using looked)
    · rcases eq_or_ne c' c with rfl | other
      · simp at returned
      · exact known.returned c' (by simpa [other] using returned)
  | look c =>
    refine ⟨fun c' remaining looked => ?_, fun c' returned => ?_⟩
    · rcases eq_or_ne c' c with rfl | other
      · simp only [Function.update_self,Call.looked.injEq] at looked
        refine ⟨looked.le, fun none_ calm v member => ?_⟩
        have all : v.place.isFinished = true := by
          have := List.countP_eq_zero.mp (looked.trans none_) v member
          simpa using this
        simp only [Bool.or_eq_false_iff,List.any_eq_false,decide_eq_true_eq] at calm
        have tame := calm.2 v member
        cases place : v.place with
        | finished panicked => cases panicked <;> simp_all
        | _ => simp [place,Place.isFinished] at all
      · obtain ⟨many, all⟩ := known.looked c' remaining (by simpa [other] using looked)
        exact ⟨many, fun none_ calm => all none_ (Bool.or_eq_false_iff.mp calm).1⟩
    · rcases eq_or_ne c' c with rfl | other
      · simp at returned
      · exact known.returned c' (by simpa [other] using returned)
  | conclude c now remaining looked =>
    refine ⟨fun c' remaining' looked' => ?_, fun c' returned => ?_⟩
    · rcases eq_or_ne c' c with rfl | other
      · simp at looked'
      · exact known.looked c' remaining' (by simpa [other] using looked')
    · rcases eq_or_ne c' c with rfl | other
      · simp only [Function.update_self,Call.returned.injEq] at returned
        obtain ⟨calm, none_, _⟩ := concludeResult_ok returned
        exact (known.looked c' remaining looked).2 none_ calm
      · exact known.returned c' (by simpa [other] using returned)

structure Inv (count : WorkerCount) (p : Pool) : Prop where
  counts : Counts count p
  honest : Honest p
  known : Known p

theorem Inv.step (inv : Inv count p) (stepped : Stepped p p') : Inv count p' :=
  ⟨inv.counts.step stepped, inv.honest.step stepped, inv.known.step stepped⟩

theorem Inv.start (count : WorkerCount) : Inv count (start count) where
  counts := by constructor <;> simp [Dispatcher.start,List.countP_replicate,Place.isCounted]
  honest := by
    refine ⟨?_, fun _ => ⟨rfl, ?_⟩, ?_⟩
    · simp [Dispatcher.start]
    · intro w member
      rw [List.eq_of_mem_replicate member]
      rfl
    · intro w member held
      rw [List.eq_of_mem_replicate member] at held
      cases held
  known := by constructor <;> simp [Dispatcher.start]

theorem Inv.run {acts : List Act} (run : steps Dispatcher.step (Dispatcher.start count) acts = some p) : Inv count p :=
  steps_invariant run (Inv.start count) fun _ _ _ inv taken => inv.step (step_stepped taken)

/-- A failure of the dispatcher that no shutdown takes back. -/
def Broken (p : Pool) : Prop :=
  p.shared.health.lifecycle = .failed ∧ p.shared.health.lastError.any (!·.isTimeout) = true

theorem WorkerError.not_timeout (error : WorkerError) : error.toLastError.isTimeout = false := by
  simpa [LastError.isTimeout] using error.ofWorker

theorem Broken.moved (broken : Broken p) {i : Nat} (moved : Moved p.shared w s' w') :
    Broken { p with shared := s', workers := p.workers.set i w' } := by
  obtain ⟨failed, own⟩ := broken
  cases moved with
  | report here news =>
    refine ⟨by simpa using failed, ?_⟩
    cases news with
    | delivered => exact own
    | _ error => simp [RuntimeHealth.report,RuntimeHealth.noted,error.not_timeout]
  | fail here error => exact ⟨rfl, by simp [RuntimeHealth.fail,RuntimeHealth.noted,error.not_timeout]⟩
  | panic here free now => exact ⟨rfl, rfl⟩
  | stop panicking here now =>
    have kept : workerStopped p.shared.health now =
        { p.shared.health with runningWorkers := p.shared.health.runningWorkers - 1 } := by
      simp [workerStopped,failed]
    exact ⟨by simpa [kept] using failed, by simpa [kept] using own⟩
  | _ => exact ⟨failed, own⟩

theorem Broken.concluded (broken : Broken p) (panicked : Bool) (remaining : Nat) (now : DateTime) :
    concludeHealth p.shared.health panicked remaining now = { p.shared.health with lifecycle := .failed } := by
  obtain ⟨failed, own⟩ := broken
  cases last : p.shared.health.lastError with
  | none => simp [last] at own
  | some error =>
    simp only [last,Option.any_some,Bool.not_eq_eq_eq_not,Bool.not_true] at own
    unfold concludeHealth
    split
    · simp [last,own]
    · rw [if_neg (by simp [failed,last,own]),← failed]

theorem Broken.step (broken : Broken p) (stepped : Stepped p p') : Broken p' := by
  cases stepped with
  | worker i w here s' w' moved => exact broken.moved moved
  | release => exact broken
  | requestShutdown c =>
    have kept : (requestShutdown p.shared).health = p.shared.health := by
      unfold requestShutdown
      split
      · rfl
      · simp [broken.1]
        rw [← broken.1]
    simpa [Broken,kept] using broken
  | look c => exact broken
  | conclude c now remaining looked =>
    refine ⟨?_, ?_⟩
    · simp [broken.concluded]
    · simpa [broken.concluded] using broken.2

def Act.isFailure : Act → Bool
  | .worker _ (.fail _) | .worker _ (.panic _) => true
  | _ => false

theorem moveWorker_fail {error : WorkerError} (moves : moveWorker s w (.fail error) = some (s', w')) :
    s'.health = s.health.fail error.toLastError := by
  cases place : w.place with
  | looping =>
    simp only [moveWorker,place,Option.some.injEq,Prod.mk.injEq] at moves
    rw [← moves.1]
  | _ => simp [moveWorker,place] at moves

theorem moveWorker_panic {now : DateTime} (moves : moveWorker s w (.panic now) = some (s', w')) :
    s'.health = s.health.fail (panicError now) := by
  cases place : w.place with
  | looping =>
    simp only [moveWorker,place,Option.ite_none_left_eq_some,Option.some.injEq,Prod.mk.injEq] at moves
    rw [← moves.2.1]
  | _ => simp [moveWorker,place] at moves

/-- A worker that fails has not finished, and leaves the dispatcher broken. -/
theorem failure_breaks {act : Act} (failure : act.isFailure = true) (taken : step p act = some p') :
    Broken p' ∧ p'.calls = p.calls ∧ ∃ w ∈ p.workers, w.place.isFinished = false := by
  unfold Act.isFailure at failure
  split at failure
  · rename_i i error
    obtain ⟨w, here, s', w', moves, rfl⟩ := step_worker taken
    refine ⟨?_, rfl, w, List.mem_of_getElem? here, (moveWorker_moved moves).unfinished⟩
    simp [Broken,moveWorker_fail moves,RuntimeHealth.fail,RuntimeHealth.noted,error.not_timeout]
  · rename_i i now
    obtain ⟨w, here, s', w', moves, rfl⟩ := step_worker taken
    refine ⟨?_, rfl, w, List.mem_of_getElem? here, (moveWorker_moved moves).unfinished⟩
    simp [Broken,moveWorker_panic moves,RuntimeHealth.fail,RuntimeHealth.noted,panicError,infrastructure,LastError.isTimeout]
  · cases failure

/-- Broken, and no call has returned `Ok`. -/
structure Refusing (p : Pool) : Prop where
  broken : Broken p
  none_ : ∀ c, p.calls c ≠ .returned (.ok ())

/-- In a broken dispatcher no call returns `Ok` any more. -/
theorem Refusing.step (refusing : Refusing p) (stepped : Stepped p p') : Refusing p' := by
  obtain ⟨broken, none_⟩ := refusing
  refine ⟨broken.step stepped, fun c ok => ?_⟩
  cases stepped with
  | worker | release => exact none_ c ok
  | requestShutdown c' =>
    rcases eq_or_ne c c' with rfl | other
    · simp at ok
    · exact none_ c (by simpa [other] using ok)
  | look c' =>
    rcases eq_or_ne c c' with rfl | other
    · simp at ok
    · exact none_ c (by simpa [other] using ok)
  | conclude c' now remaining looked =>
    rcases eq_or_ne c c' with rfl | other
    · simp only [Function.update_self,Call.returned.injEq] at ok
      exact (concludeResult_ok ok).2.2 (by simp [broken.concluded])
    · exact none_ c (by simpa [other] using ok)

def oneWorker : WorkerCount := ⟨1, by decide⟩

/-- A worker that is appending when a shutdown is requested .. -/
def untilRequest : List Act := [
  .worker 0 .enter, .worker 0 .arrive, .release, .worker 0 .pass, .worker 0 .acquire, .requestShutdown 0]

/-- .. drops its permit and leaves. -/
def untilLook : List Act := [.worker 0 .dropPermit, .worker 0 .leave, .worker 0 (.stop sampleNow), .look 0]

def Pool.after (p : Pool) (acts : List Act) : Pool := (steps step p acts).getD p

/-- The worker that leaves after the request. -/
def leaving : List Act := untilRequest ++ [.worker 0 .dropPermit, .worker 0 .leave]

/-- The workers that are appending. -/
def Pool.appending (p : Pool) : Set Nat := { i | ∃ w, p.workers[i]? = some w ∧ w.permit = true }

/-- Appends are refused, and who is appending was so in `p`. -/
structure Draining (p q : Pool) : Prop where
  closed : q.shared.appendAdmission.accepting = false
  appending : q.appending ⊆ p.appending

theorem Stepped.closed (stepped : Stepped p p') (closed : p.shared.appendAdmission.accepting = false) :
    p'.shared.appendAdmission.accepting = false ∧ p'.appending ⊆ p.appending := by
  cases stepped with
  | worker i w here s' w' moved =>
    refine ⟨moved.unclosed.1.trans closed, ?_⟩
    rintro j ⟨v, there, held⟩
    rcases eq_or_ne j i with rfl | other
    · simp only [List.getElem?_set_self (List.getElem?_eq_some_iff.mp here).choose,Option.some.injEq] at there
      subst there
      refine ⟨w, here, ?_⟩
      cases moved with
      | acquire here' free accepting => simp [closed] at accepting
      | dropPermit => cases held
      | _ => exact held
    · exact ⟨v, by simpa [List.getElem?_set_ne other.symm] using there, held⟩
  | requestShutdown c => exact ⟨by simp, subset_rfl⟩
  | _ => exact ⟨closed, subset_rfl⟩

theorem closed_of_requested {acts : List Act} {c : Nat} (requested : .requestShutdown c ∈ acts)
    (run : steps step p acts = some p') : p'.shared.appendAdmission.accepting = false := by
  induction acts using List.reverseRecOn generalizing p' with
  | nil => cases requested
  | append_singleton acts a ih =>
    obtain ⟨q, before, last⟩ := steps_concat_some run
    rcases List.mem_append.mp requested with earlier | now
    · exact ((step_stepped last).closed (ih earlier before)).1
    · obtain rfl := List.mem_singleton.mp now
      simp only [step,Option.ite_none_right_eq_some,Option.some.injEq] at last
      rw [← last.2]
      simp

/-- A worker that neither fails nor panics. -/
def Place.isSound : Place → Bool
  | .failing _ | .leaving true | .finished true => false
  | _ => true

structure Clean (p : Pool) : Prop where
  lifecycle : p.shared.health.lifecycle ≠ .failed
  workers : ∀ w ∈ p.workers, w.place.isSound = true
  workerPanicked : p.workerPanicked = false

/-- The call returns after it has seen every worker finished. -/
def Waits (p : Pool) : Act → Prop
  | .conclude c _ => p.calls c = .looked 0
  | _ => True

instance (p : Pool) (act : Act) : Decidable (Waits p act) := by
  unfold Waits
  split <;> infer_instance

theorem moveWorker_calm {i : Nat} {move : Move} (looping : w.place = .looping)
    (calm : (Act.worker i move).isFailure = false) (moves : moveWorker s w move = some (s', w')) :
    s'.health.lifecycle = s.health.lifecycle ∧ w'.place.isSound = true := by
  cases move with
  | report news =>
    simp only [moveWorker,looping,Option.some.injEq,Prod.mk.injEq] at moves
    rw [← moves.1,← moves.2,looping]
    exact ⟨RuntimeHealth.report_lifecycle _ _, rfl⟩
  | acquire =>
    simp only [moveWorker,looping,Option.ite_none_left_eq_some] at moves
    obtain ⟨_, moves⟩ := moves
    split at moves
    · rename_i admitted
      obtain ⟨_, _, rfl⟩ := admitAppend_some admitted
      cases moves
      exact ⟨rfl, rfl⟩
    · cases moves
      exact ⟨rfl, by rw [looping]; rfl⟩
  | fail error => cases calm
  | panic now => cases calm
  | dropPermit =>
    simp only [moveWorker,looping,Option.ite_none_right_eq_some,Option.some.injEq,Prod.mk.injEq] at moves
    rw [← moves.2.1,← moves.2.2]
    exact ⟨rfl, rfl⟩
  | leave =>
    simp only [moveWorker,looping,Option.ite_none_right_eq_some,Option.some.injEq,Prod.mk.injEq] at moves
    rw [← moves.2.1,← moves.2.2]
    exact ⟨rfl, rfl⟩
  | _ => simp [moveWorker,looping] at moves

theorem Clean.moved (clean : Clean p) (honest : Honest p) {i : Nat} {move : Move} (here : p.workers[i]? = some w)
    (calm : (Act.worker i move).isFailure = false) (moves : moveWorker p.shared w move = some (s', w')) :
    Clean { p with shared := s', workers := p.workers.set i w' } := by
  have member := List.mem_of_getElem? here
  have sound := clean.workers w member
  have after : s'.health.lifecycle ≠ .failed ∧ w'.place.isSound = true := by
    by_cases looping : w.place = .looping
    · obtain ⟨same, fine⟩ := moveWorker_calm looping calm moves
      exact ⟨same ▸ clean.lifecycle, fine⟩
    · cases moveWorker_moved moves with
      | enter | arrive | pass => exact ⟨clean.lifecycle, rfl⟩
      | raise panicking here' => rw [here'] at sound; cases sound
      | stop panicking here' now =>
        have reported : p.shared.health.lifecycle ≠ .running := by
          intro running
          have up := (honest.running running).2 w member
          rw [here'] at up
          cases up
        refine ⟨by simpa [workerStopped,reported] using clean.lifecycle, ?_⟩
        cases panicking with
        | false => rfl
        | true => rw [here'] at sound; cases sound
      | _ => contradiction
  refine ⟨after.1, fun v inside => ?_, clean.workerPanicked⟩
  rcases List.mem_or_eq_of_mem_set inside with old | rfl
  · exact clean.workers v old
  · exact after.2

theorem Clean.step (clean : Clean p) (honest : Honest p) {act : Act} (calm : act.isFailure = false) (waits : Waits p act)
    (taken : step p act = some p') : Clean p' := by
  cases act with
  | worker i move =>
    obtain ⟨w, here, s', w', moves, rfl⟩ := step_worker taken
    exact clean.moved honest here calm moves
  | release =>
    simp only [Dispatcher.step,Option.ite_none_right_eq_some,Option.some.injEq] at taken
    exact taken.2 ▸ ⟨clean.lifecycle, clean.workers, clean.workerPanicked⟩
  | requestShutdown c =>
    simp only [Dispatcher.step,Option.ite_none_right_eq_some,Option.some.injEq] at taken
    rw [← taken.2]
    refine ⟨?_, clean.workers, clean.workerPanicked⟩
    simp only [requestShutdown]
    split
    · exact clean.lifecycle
    · simp only
      split
      · simp
      · exact clean.lifecycle
  | look c =>
    have quiet : (p.workerPanicked || p.workers.any (·.place = .finished true)) = false := by
      simp only [clean.workerPanicked,Bool.false_or,List.any_eq_false,decide_eq_true_eq]
      intro w member panicked
      have sound := clean.workers w member
      rw [panicked] at sound
      cases sound
    simp only [Dispatcher.step] at taken
    split at taken
    · exact Option.some.inj taken ▸ ⟨clean.lifecycle, clean.workers, quiet⟩
    · exact Option.some.inj taken ▸ ⟨clean.lifecycle, clean.workers, quiet⟩
    · cases taken
  | conclude c now =>
    have looked : p.calls c = .looked 0 := waits
    simp only [Dispatcher.step,looked,Option.some.injEq] at taken
    rw [← taken]
    refine ⟨?_, clean.workers, clean.workerPanicked⟩
    simp [concludeHealth,clean.workerPanicked,clean.lifecycle]

theorem Clean.start (count : WorkerCount) : Clean (Dispatcher.start count) where
  lifecycle := by simp [Dispatcher.start]
  workers := by
    intro w member
    rw [List.eq_of_mem_replicate member]
    rfl
  workerPanicked := rfl

theorem Clean.run {acts : List Act} (calm : ∀ a ∈ acts, a.isFailure = false)
    (waits : Meets Dispatcher.step (Dispatcher.start count) Waits acts)
    (run : steps Dispatcher.step (Dispatcher.start count) acts = some p) : Clean p := by
  induction acts using List.reverseRecOn generalizing p with
  | nil => exact Option.some.inj run ▸ Clean.start count
  | append_singleton acts a ih =>
    obtain ⟨q, before, last⟩ := steps_concat_some run
    obtain ⟨earlier, here⟩ := (meets_concat before).mp waits
    have clean := ih (fun b member => calm b (List.mem_append_left _ member)) earlier before
    exact clean.step (Inv.run before).honest (calm a (by simp)) here last

/-- A failure rules `Ok` out, before it and after it. -/
theorem no_ok_of_failure {acts : List Act} {a : Act} (inside : a ∈ acts) (failure : a.isFailure = true)
    (run : steps step (start count) acts = some p) (c : Nat) : p.calls c ≠ .returned (.ok ()) := by
  obtain ⟨before, after, rfl⟩ := List.append_of_mem inside
  rw [steps_append] at run
  obtain ⟨q, reached, run⟩ := Option.bind_eq_some_iff.mp run
  rw [steps] at run
  obtain ⟨q', fails, rest⟩ := Option.bind_eq_some_iff.mp run
  obtain ⟨broken, calls, w, member, unfinished⟩ := failure_breaks failure fails
  have refusing : Refusing q' := by
    refine ⟨broken, fun c ok => ?_⟩
    have finished := unfinished_of_place ((Inv.run reached).known.returned c (calls ▸ ok) w member)
    rw [unfinished] at finished
    cases finished
  exact (steps_invariant rest refusing fun _ _ _ here taken => here.step (step_stepped taken)).none_ c

/-- `shutdown` tells the truth in every interleaving: when a call returned `Ok`, no worker ever failed or panicked, all
of them have finished and no append is in flight. Where calls wait for the last worker, a pool without a failure gets
its `Ok`. -/
theorem shutdown_truthful {acts : List Act} {c : Nat} {now : DateTime}
    (run : steps step (start count) (acts ++ [.conclude c now]) = some p) :
    (p.calls c = .returned (.ok ()) → (∀ a ∈ acts, a.isFailure = false) ∧ (∀ w ∈ p.workers, w.place = .finished false) ∧
      p.shared.appendAdmission.inFlight = 0 ∧ p.shared.health.runningWorkers = 0) ∧
    (Meets step (start count) Waits (acts ++ [.conclude c now]) → (∀ a ∈ acts, a.isFailure = false) →
      p.calls c = .returned (.ok ())) := by
  have inv := Inv.run run
  refine ⟨fun ok => ?_, fun waits calm => ?_⟩
  · have finished := inv.known.returned c ok
    refine ⟨fun a inside => ?_, finished, ?_, ?_⟩
    · by_contra failure
      exact no_ok_of_failure (List.mem_append_left _ inside) (by simpa using failure) run c ok
    · rw [inv.counts.inFlight,List.countP_eq_zero]
      intro w member held
      rcases inv.honest.permits w member held with place | place <;> simp [finished w member] at place
    · rw [inv.counts.running,List.countP_eq_zero]
      intro w member
      simp [finished w member,Place.isCounted]
  · obtain ⟨q, before, last⟩ := steps_concat_some run
    obtain ⟨earlier, looked⟩ := (meets_concat before).mp waits
    have clean := Clean.run calm earlier before
    have looked : q.calls c = .looked 0 := looked
    simp only [step,looked,Option.some.injEq] at last
    rw [← last]
    simp [concludeResult,concludeHealth,clean.workerPanicked,clean.lifecycle]

theorem shutdown_truthful_drained :
    ((start oneWorker).after ((untilRequest ++ untilLook) ++ [.conclude 0 sampleNow])).calls 0 = .returned (.ok ()) :=
  (shutdown_truthful (rfl : steps step (start oneWorker) ((untilRequest ++ untilLook) ++ [.conclude 0 sampleNow]) =
    some ((start oneWorker).after ((untilRequest ++ untilLook) ++ [.conclude 0 sampleNow])))).2
    (meets_of_check rfl) (by simp [untilRequest,untilLook,Act.isFailure])

end Zaion.Turn.Dispatcher
