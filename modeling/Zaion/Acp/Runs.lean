import Zaion.Lib.Steps
import Zaion.Lib.Table

/-! Runs of the agent communication protocol. A run is a row of the store; a `runs/create` on the
wake route writes it four times, with the dispatch between the second and the third, and a
`runs/cancel` from another connection writes it at any time. -/
namespace Zaion.Acp

open Lib

inductive RunStatus where
  | queued
  | running
  | completed
  | failed
  | cancelled
  deriving DecidableEq, Repr

/-- Nothing more happens to the run. -/
def RunStatus.finished : RunStatus → Bool
  | .queued | .running => false
  | .completed | .failed | .cancelled => true

structure Outcome where
  status : RunStatus
  result : Option String
  error : Option String
  deriving DecidableEq, Repr

structure AcpRun where
  runId : String
  submitterPrincipal : String
  task : String
  outcome : Outcome
  deriving DecidableEq, Repr

inductive A2AError where
  | agentNotFound (id : String)
  | protocol (message : String)
  deriving DecidableEq, Repr

abbrev Store := List AcpRun

namespace Store

def row (store : Store) (runId : String) : Option AcpRun := Table.select AcpRun.runId runId store

/-- The run id is the primary key. -/
def createWithRunId (store : Store) (runId task submitter : String) : Except A2AError Store :=
  match store.row runId with
  | some _ => .error (.protocol "UNIQUE constraint failed: runs.run_id")
  | none => .ok (store ++ [⟨runId, submitter, task, ⟨.queued, none, none⟩⟩])

def get (store : Store) (runId : String) : Except A2AError AcpRun :=
  match store.row runId with
  | some run => .ok run
  | none => .error (.agentNotFound runId)

/-- The number of rows that change is not looked at. -/
def updateStatus (store : Store) (runId : String) (outcome : Outcome) : Except A2AError Store :=
  .ok (Table.modify AcpRun.runId runId (fun run => { run with outcome := outcome }) store)

def cancel (store : Store) (runId : String) : Except A2AError Store :=
  store.updateStatus runId ⟨.cancelled, none, some "cancelled by request"⟩

end Store

/-- How far a `runs/create` on the wake route is. -/
inductive Phase where
  | created
  | running
  | dispatched (reply : Except String String)
  | ended
  deriving DecidableEq, Repr

structure WakeCall where
  runId : String
  phase : Phase
  deriving DecidableEq, Repr

structure Service where
  store : Store
  calls : List WakeCall
  deriving DecidableEq, Repr

inductive Act where
  | create (runId task submitter : String)
  | markRunning (call : Nat)
  | dispatch (call : Nat) (reply : Except String String)
  /-- Marked completed or failed, as the dispatch went. -/
  | finish (call : Nat)
  /-- A write of the store fails, and the request with it. -/
  | abort (call : Nat)
  | cancel (runId : String)
  | get (runId : String)
  deriving DecidableEq, Repr

def finishOutcome : Except String String → Outcome
  | .ok text => ⟨.completed, some text, none⟩
  | .error message => ⟨.failed, none, some message⟩

namespace Service

/-- One status write, and where its call stands after it. -/
def write (s : Service) (runId : String) (outcome : Outcome) (calls : List WakeCall) : Option Service :=
  match s.store.updateStatus runId outcome with
  | .ok store => some ⟨store, calls⟩
  | .error _ => some s

/-- `none` where a call is not at the step. -/
def step (s : Service) : Act → Option Service
  | .create runId task submitter =>
    match s.store.createWithRunId runId task submitter with
    | .ok store => some ⟨store, s.calls ++ [⟨runId, .created⟩]⟩
    | .error _ => some s
  | .markRunning i =>
    match s.calls[i]? with
    | some ⟨runId, .created⟩ => s.write runId ⟨.running, none, none⟩ (s.calls.set i ⟨runId, .running⟩)
    | _ => none
  | .dispatch i reply =>
    match s.calls[i]? with
    | some ⟨runId, .running⟩ => some { s with calls := s.calls.set i ⟨runId, .dispatched reply⟩ }
    | _ => none
  | .finish i =>
    match s.calls[i]? with
    | some ⟨runId, .dispatched reply⟩ => s.write runId (finishOutcome reply) (s.calls.set i ⟨runId, .ended⟩)
    | _ => none
  | .abort i =>
    match s.calls[i]? with
    | some ⟨runId, _⟩ => some { s with calls := s.calls.set i ⟨runId, .ended⟩ }
    | none => none
  | .cancel runId => s.write runId ⟨.cancelled, none, some "cancelled by request"⟩ s.calls
  | .get _ => some s

/-- The status a step writes, and to which run. -/
def writes (s : Service) : Act → Option (String × Outcome)
  | .markRunning i =>
    match s.calls[i]? with
    | some ⟨runId, .created⟩ => some (runId, ⟨.running, none, none⟩)
    | _ => none
  | .finish i =>
    match s.calls[i]? with
    | some ⟨runId, .dispatched reply⟩ => some (runId, finishOutcome reply)
    | _ => none
  | .cancel runId => some (runId, ⟨.cancelled, none, some "cancelled by request"⟩)
  | _ => none

/-- A step that leaves finished runs as they are, and no unknown run is cancelled. -/
def Keeps (s : Service) (act : Act) (t : Service) : Prop :=
  (∀ id run, s.store.row id = some run → run.outcome.status.finished = true →
    ∃ run', t.store.row id = some run' ∧ run'.outcome = run.outcome) ∧
  ∀ id, act = .cancel id → s.store.row id = none → ∃ e, s.store.cancel id = .error e

/-- What is written goes to a run that is not finished, or is there already; what is cancelled is known. -/
def Fitting (s : Service) (act : Act) : Prop :=
  (∀ id outcome run, s.writes act = some (id, outcome) → s.store.row id = some run →
    run.outcome.status.finished = true → run.outcome = outcome) ∧
  ∀ id, act = .cancel id → s.store.row id ≠ none

end Service

section

variable {s t : Service} {act : Act}

theorem row_update_self (store : Store) (runId : String) (outcome : Outcome) :
    Table.select AcpRun.runId runId (Table.modify AcpRun.runId runId (fun run => { run with outcome := outcome }) store) =
      (store.row runId).map (fun run => { run with outcome := outcome }) :=
  Table.select_modify_self (fun _ own => own)

theorem row_update_other (store : Store) {runId id : String} (outcome : Outcome) (other : id ≠ runId) :
    Table.select AcpRun.runId id (Table.modify AcpRun.runId runId (fun run => { run with outcome := outcome }) store) =
      store.row id :=
  Table.select_modify_other (fun _ _ own => own) other

/-- A step writes one row, adds one, or leaves the store as it is. -/
theorem step_store (taken : s.step act = some t) :
    (∃ id outcome, s.writes act = some (id, outcome) ∧
      t.store = Table.modify AcpRun.runId id (fun run => { run with outcome := outcome }) s.store) ∨
    s.writes act = none ∧ (t.store = s.store ∨ ∃ run, s.store.row run.runId = none ∧ t.store = s.store ++ [run]) := by
  cases act with
  | create runId task submitter =>
    rw [Service.step,Store.createWithRunId] at taken
    cases found : s.store.row runId with
    | some old =>
      simp only [found] at taken
      cases taken
      exact .inr ⟨rfl, .inl rfl⟩
    | none =>
      simp only [found] at taken
      cases taken
      exact .inr ⟨rfl, .inr ⟨_, found, rfl⟩⟩
  | markRunning i =>
    rw [Service.step] at taken
    split at taken
    · rename_i runId found
      cases taken
      exact .inl ⟨runId, _, by rw [Service.writes,found], rfl⟩
    · cases taken
  | dispatch i reply =>
    rw [Service.step] at taken
    split at taken
    · cases taken
      exact .inr ⟨rfl, .inl rfl⟩
    · cases taken
  | finish i =>
    rw [Service.step] at taken
    split at taken
    · rename_i runId reply found
      cases taken
      exact .inl ⟨runId, _, by rw [Service.writes,found], rfl⟩
    · cases taken
  | abort i =>
    rw [Service.step] at taken
    split at taken
    · cases taken
      exact .inr ⟨rfl, .inl rfl⟩
    · cases taken
  | cancel runId =>
    cases taken
    exact .inl ⟨runId, _, rfl, rfl⟩
  | get runId =>
    cases taken
    exact .inr ⟨rfl, .inl rfl⟩

/-- A step keeps finished runs, and reports unknown ones, exactly when what it writes fits. -/
theorem step_keeps_iff (taken : s.step act = some t) : s.Keeps act t ↔ s.Fitting act := by
  have cancels : (∀ id, act = .cancel id → s.store.row id = none → ∃ e, s.store.cancel id = .error e) ↔
      ∀ id, act = .cancel id → s.store.row id ≠ none := by
    refine forall_congr' fun id => imp_congr_right fun _ => ⟨?_, fun known unknown => absurd unknown known⟩
    intro reported unknown
    obtain ⟨e, refused⟩ := reported unknown
    cases refused
  unfold Service.Keeps Service.Fitting
  rw [cancels]
  refine and_congr_left' ?_
  rcases step_store taken with ⟨id, outcome, written, store⟩ | ⟨unwritten, store⟩
  · rw [written,store]
    constructor
    · intro kept id' outcome' run same found finished
      cases same
      obtain ⟨run', after, equal⟩ := kept id run found finished
      rw [Store.row,row_update_self,found] at after
      cases after
      exact equal.symm
    · intro fits id' run found finished
      by_cases same : id' = id
      · subst same
        refine ⟨{ run with outcome := outcome }, ?_, (fits id' outcome run rfl found finished).symm⟩
        rw [Store.row,row_update_self,found]
        rfl
      · exact ⟨run, (row_update_other s.store outcome same).trans found, rfl⟩
  · rw [unwritten]
    refine ⟨(fun _ _ _ _ written => nomatch written), ?_⟩
    intro _ id run found _
    rcases store with same | ⟨new, fresh, added⟩
    · exact ⟨run, same ▸ found, rfl⟩
    · refine ⟨run, ?_, rfl⟩
      have other : new.runId ≠ id := by
        rintro rfl
        rw [found] at fresh
        cases fresh
      rw [added]
      exact (Table.select_append_of_ne other).trans found

/-- In every interleaving, from any store: every step keeps the runs that are finished and no
unknown run is cancelled without an error, exactly when every write of the run fits. -/
theorem finished_runs_kept_iff (store : Store) (acts : List Act) :
    (∀ before act after s t, acts = before ++ act :: after → steps Service.step ⟨store, []⟩ before = some s →
      s.step act = some t → s.Keeps act t) ↔
    ∀ before act after s t, acts = before ++ act :: after → steps Service.step ⟨store, []⟩ before = some s →
      s.step act = some t → s.Fitting act := by
  constructor
  · intro kept before act after s t split run taken
    exact (step_keeps_iff taken).mp (kept before act after s t split run taken)
  · intro fits before act after s t split run taken
    exact (step_keeps_iff taken).mpr (fits before act after s t split run taken)

end

/-- A run is cancelled while its dispatch is under way, and completed afterwards. -/
def cancelledOnTheWay : List Act :=
  [.create "run-1" "task" "agent", .markRunning 0, .dispatch 0 (.ok "done"), .cancel "run-1", .finish 0]

/-- The cancelled run becomes completed, and an unknown run is cancelled without an error. -/
theorem cancelled_becomes_completed :
    ((steps Service.step ⟨[], []⟩ (cancelledOnTheWay.take 4)).bind (fun s => s.store.row "run-1")).map (AcpRun.outcome) =
      some ⟨.cancelled, none, some "cancelled by request"⟩ ∧
    ((steps Service.step ⟨[], []⟩ cancelledOnTheWay).bind (fun s => s.store.row "run-1")).map (AcpRun.outcome) =
      some ⟨.completed, some "done", none⟩ ∧
    Store.cancel [] "run-9" = .ok [] := by
  decide

end Zaion.Acp
