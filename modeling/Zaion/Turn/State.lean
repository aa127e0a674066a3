import Zaion.Lib.Checked
import Zaion.Lib.Json

/-! States of a turn, their transition table, and the result a finished turn leaves. -/
namespace Zaion.Turn

open Lib

inductive TurnState where
  | accepted
  | routed
  | running
  | waitingApproval
  | toolRunning
  | completed
  | degraded
  | aborted
  | quarantined
  deriving DecidableEq, Repr

namespace TurnState

def isTerminal : TurnState → Bool
  | completed | degraded | aborted | quarantined => true
  | _ => false

def canTransitionTo : TurnState → TurnState → Bool
  | accepted, routed | accepted, aborted | accepted, quarantined => true
  | routed, running | routed, aborted | routed, quarantined => true
  | running, waitingApproval | running, toolRunning | running, completed | running, degraded
  | running, aborted | running, quarantined => true
  | waitingApproval, toolRunning | waitingApproval, aborted | waitingApproval, quarantined => true
  | toolRunning, running | toolRunning, waitingApproval | toolRunning, completed
  | toolRunning, degraded | toolRunning, aborted | toolRunning, quarantined => true
  | _, _ => false

/-- `state_name`. -/
def name : TurnState → String
  | accepted => "accepted"
  | routed => "routed"
  | running => "running"
  | waitingApproval => "waiting_approval"
  | toolRunning => "tool_running"
  | completed => "completed"
  | degraded => "degraded"
  | aborted => "aborted"
  | quarantined => "quarantined"

/-- `parse_state`, without its error. -/
def parse? (text : String) : Option TurnState :=
  if text = "accepted" then some accepted
  else if text = "routed" then some routed
  else if text = "running" then some running
  else if text = "waiting_approval" then some waitingApproval
  else if text = "tool_running" then some toolRunning
  else if text = "completed" then some completed
  else if text = "degraded" then some degraded
  else if text = "aborted" then some aborted
  else if text = "quarantined" then some quarantined
  else none

@[simp] theorem parse_name (s : TurnState) : parse? s.name = some s := by
  cases s <;> simp [name,parse?]

theorem name_injective : Function.Injective name := by
  intro a b same
  have := congrArg parse? same
  simpa using this

/-- `state_event_type`. -/
def eventType (s : TurnState) : String := "turn.state." ++ s.name

theorem live_of_canTransition {a b : TurnState} (legal : a.canTransitionTo b = true) :
    a.isTerminal = false := by
  cases a <;> cases b <;> simp_all [canTransitionTo,isTerminal]

end TurnState

inductive TurnTransitionError where
  | revisionConflict (expected actual : Nat)
  | stateConflict (expected actual : TurnState)
  | terminalState (state : TurnState)
  | illegalTransition (source target : TurnState)
  | revisionExhausted
  deriving DecidableEq, Repr

def u64Max : Nat := 18446744073709551615

/-- `VersionedTurnState::compare_and_transition`: the revision after the transition. -/
def compareAndTransition (state : TurnState) (revision : Nat) (expectedState : TurnState)
    (expectedRevision : Nat) (next : TurnState) : Except TurnTransitionError Nat := do
  ensure (revision = expectedRevision) (TurnTransitionError.revisionConflict expectedRevision revision)
  ensure (state = expectedState) (TurnTransitionError.stateConflict expectedState state)
  ensure (state.isTerminal = false) (TurnTransitionError.terminalState state)
  ensure (state.canTransitionTo next = true) (TurnTransitionError.illegalTransition state next)
  ensure (revision < u64Max) TurnTransitionError.revisionExhausted
  .ok (revision + 1)

theorem compareAndTransition_ok {state : TurnState} {revision : Nat} {expectedState : TurnState}
    {expectedRevision : Nat} {next : TurnState} {revision' : Nat}
    (done : compareAndTransition state revision expectedState expectedRevision next = .ok revision') :
    revision = expectedRevision ∧ state = expectedState ∧ state.canTransitionTo next = true ∧
      revision' = revision + 1 := by
  simp only [compareAndTransition,bind_ok_iff,ensure_ok_iff] at done
  obtain ⟨_, sameRevision, _, sameState, _, _, _, legal, _, _, result⟩ := done
  exact ⟨sameRevision, sameState, legal, (Except.ok.inj result).symm⟩

theorem compareAndTransition_self {state : TurnState} {revision : Nat} {next : TurnState}
    (legal : state.canTransitionTo next = true) (room : revision < u64Max) :
    compareAndTransition state revision state revision next = .ok (revision + 1) := by
  simp [compareAndTransition,legal,room,TurnState.live_of_canTransition legal]

structure RuntimeOutput where
  runtimeOwner : String
  runtimeTopology : List String
  providerResponseHash : String
  contextPackId : String
  memoryAtomIds : List String
  toolReceiptIds : List String
  streamHash : String
  deriving DecidableEq

structure ProofClosure where
  schemaVersion : UInt8
  answerTraceEventId : String
  turnProofEventId : String
  proofHash : String
  receiptProofJoinEventId : Option String
  evidenceGraphHash : String
  deriving DecidableEq

structure DegradationReport where
  reasonCode : String
  safeResponse : Bool
  lostCapabilities : List String
  deriving DecidableEq

structure TurnError where
  reasonCode : String
  message : String
  deriving DecidableEq

structure PartialLedgerTail where
  appendedEventIds : List String
  lastSafeParentEventId : Option String
  deriving DecidableEq

structure QuarantineEvent where
  level : UInt8
  reasonCode : String
  diagnosticScope : String
  deriving DecidableEq

inductive TurnOutcome where
  | completed (closure : ProofClosure)
  | degraded (closure : ProofClosure) (report : DegradationReport)
  | aborted (error : TurnError) (tail : PartialLedgerTail)
  | quarantined (event : QuarantineEvent)
  deriving DecidableEq

inductive TurnExecution where
  | finished (output : Option RuntimeOutput) (outcome : TurnOutcome)
  | handled (kind : String)
  | scheduled (taskId startEventId : String)
  deriving DecidableEq

def TurnExecution.terminalState : TurnExecution → TurnState
  | .handled _ | .scheduled _ _ => .completed
  | .finished _ (.completed _) => .completed
  | .finished _ (.degraded _ _) => .degraded
  | .finished _ (.aborted _ _) => .aborted
  | .finished _ (.quarantined _) => .quarantined

end Zaion.Turn
