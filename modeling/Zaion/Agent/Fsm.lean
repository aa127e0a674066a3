import Zaion.Agent.ToolResults

/-! The five-state machine of the agent loop. A handler takes the clock reading its log entry
gets and hands back the machine it leaves, changed or not, with its answer. -/
namespace Zaion.Agent

structure ToolCall where
  id : String
  name : String
  arguments : Json
  deriving DecidableEq

structure ChatMessage where
  role : String
  content : String
  toolCalls : List ToolCall
  toolCallId : Option String
  reasoningContent : Option String
  reasoningSignature : Option String
  deriving DecidableEq

inductive FinishReason where
  | stop
  | toolUse
  | maxTokens
  deriving DecidableEq, Repr

structure ToolCallRequest where
  id : String
  name : String
  arguments : String
  deriving DecidableEq, Repr

structure LlmOutcome where
  finishReason : FinishReason
  toolCalls : List ToolCallRequest
  text : String
  tokensUsed : Nat
  deriving DecidableEq, Repr

inductive AgentState where
  | idle
  | thinking
  | toolUse
  | responding
  | reflecting
  deriving DecidableEq, Repr

/-- `{:?}` of a state. -/
def AgentState.debug : AgentState → String
  | .idle => "Idle"
  | .thinking => "Thinking"
  | .toolUse => "ToolUse"
  | .responding => "Responding"
  | .reflecting => "Reflecting"

inductive FsmError where
  | invalidTransition (source target : AgentState)
  | maxToolRoundsExceeded (max : Nat)
  | tokenLimitExceeded
  deriving DecidableEq, Repr

def FsmError.text : FsmError → String
  | .invalidTransition source target =>
    "invalid transition: cannot go from " ++ source.debug ++ " to " ++ target.debug
  | .maxToolRoundsExceeded max => "max tool rounds (" ++ toString max ++ ") exceeded"
  | .tokenLimitExceeded => "session token limit exceeded"

structure FsmConfig where
  maxToolRounds : Nat
  maxSessionTokens : Nat
  reflectionEnabled : Bool
  deriving DecidableEq, Repr

/-- `FsmConfig::default`. -/
def FsmConfig.default : FsmConfig := ⟨10, 100000, true⟩

structure StateTransition where
  source : AgentState
  target : AgentState
  reason : String
  timestampMs : Nat
  deriving DecidableEq, Repr

structure AgentFsm where
  state : AgentState
  messages : List ChatMessage
  config : FsmConfig
  transitions : List StateTransition
  toolRoundCount : Nat
  sessionTokens : Nat
  deriving DecidableEq

/-- `u64` addition as the release build does it. -/
def addU64 (a b : Nat) : Nat := (a + b) % 18446744073709551616

def assistantMessage (text : String) : ChatMessage := ⟨"assistant", text, [], none, none, none⟩

def toolMessage (result : ToolResult) : ChatMessage where
  role := "tool"
  content := "[" ++ (if result.success then "ok" else "err") ++ "] " ++ result.toolName ++ ": " ++ result.output
  toolCalls := []
  toolCallId := some result.toolCallId
  reasoningContent := none
  reasoningSignature := none

namespace AgentFsm

def new (config : FsmConfig) : AgentFsm := ⟨.idle, [], config, [], 0, 0⟩

/-- `transition_to` and `record_transition`. -/
def transitionTo (fsm : AgentFsm) (target : AgentState) (reason : String) (now : Nat) : AgentFsm :=
  { fsm with state := target, transitions := fsm.transitions ++ [⟨fsm.state, target, reason, now⟩] }

/-- `add_assistant_message_from_outcome`: the calls of the outcome are not copied. -/
def addAssistantMessageFromOutcome (fsm : AgentFsm) (outcome : LlmOutcome) : AgentFsm :=
  { fsm with messages := fsm.messages ++ [assistantMessage outcome.text] }

def onUserMessage (fsm : AgentFsm) (message : ChatMessage) (now : Nat) : AgentFsm × Except FsmError AgentState :=
  if fsm.state ≠ .idle then (fsm, .error (.invalidTransition fsm.state .thinking))
  else
    let fsm := { fsm with messages := fsm.messages ++ [message], toolRoundCount := 0 }
    (fsm.transitionTo .thinking "user message received" now, .ok .thinking)

def onLlmResponse (fsm : AgentFsm) (outcome : LlmOutcome) (now : Nat) : AgentFsm × Except FsmError AgentState :=
  if fsm.state ≠ .thinking then (fsm, .error (.invalidTransition fsm.state .responding))
  else
    let fsm := { fsm with sessionTokens := addU64 fsm.sessionTokens outcome.tokensUsed }
    if fsm.config.maxSessionTokens < fsm.sessionTokens then
      (fsm.transitionTo .idle "session token limit exceeded" now, .error .tokenLimitExceeded)
    else
      match outcome.finishReason with
      | .toolUse =>
        ((fsm.addAssistantMessageFromOutcome outcome).transitionTo .toolUse "LLM requested tool calls" now, .ok .toolUse)
      | .stop =>
        ((fsm.addAssistantMessageFromOutcome outcome).transitionTo .responding "LLM produced text response" now,
          .ok .responding)
      | .maxTokens => (fsm.transitionTo .idle "max tokens reached" now, .ok .idle)

def onToolResults (fsm : AgentFsm) (results : List ToolResult) (now : Nat) : AgentFsm × Except FsmError AgentState :=
  if fsm.state ≠ .toolUse then (fsm, .error (.invalidTransition fsm.state .thinking))
  else
    let fsm := { fsm with toolRoundCount := fsm.toolRoundCount + 1 }
    if fsm.config.maxToolRounds < fsm.toolRoundCount then
      (fsm.transitionTo .idle "max tool rounds exceeded" now, .error (.maxToolRoundsExceeded fsm.config.maxToolRounds))
    else
      let fsm := { fsm with messages := fsm.messages ++ results.map toolMessage }
      (fsm.transitionTo .thinking "tool results collected" now, .ok .thinking)

/-- The disk is part of what the call reads and writes. -/
def onToolResultsWithBudget (host : Host) (fsm : AgentFsm) (results : List ToolResult) (config : ToolResultBudgetConfig)
    (disk : Disk) (now : Nat) : AgentFsm × Disk × Except StorageError AgentState :=
  if fsm.state ≠ .toolUse then (fsm, disk, .error (.state (FsmError.text (.invalidTransition fsm.state .thinking))))
  else
    match budgetToolResults host results config disk with
    | (disk, .error e) => (fsm, disk, .error e)
    | (disk, .ok budgeted) =>
      match fsm.onToolResults budgeted now with
      | (fsm, .ok state) => (fsm, disk, .ok state)
      | (fsm, .error e) => (fsm, disk, .error (.state e.text))

def onResponseDelivered (fsm : AgentFsm) (now : Nat) : AgentFsm × Except FsmError AgentState :=
  if fsm.state ≠ .responding then (fsm, .error (.invalidTransition fsm.state .reflecting))
  else if fsm.config.reflectionEnabled then
    (fsm.transitionTo .reflecting "response delivered, reflecting" now, .ok .reflecting)
  else (fsm.transitionTo .idle "response delivered, reflection disabled" now, .ok .idle)

def onReflectionComplete (fsm : AgentFsm) (now : Nat) : AgentFsm × Except FsmError AgentState :=
  if fsm.state ≠ .reflecting then (fsm, .error (.invalidTransition fsm.state .idle))
  else (fsm.transitionTo .idle "reflection complete" now, .ok .idle)

def reset (fsm : AgentFsm) (now : Nat) : AgentFsm :=
  AgentFsm.transitionTo { fsm with toolRoundCount := 0 } .idle "forced reset" now

end AgentFsm

/-- An event fed to the machine; a budgeted turn finds some disk. -/
inductive FsmEvent where
  | userMessage (message : ChatMessage)
  | llmResponse (outcome : LlmOutcome)
  | toolResults (results : List ToolResult)
  | toolResultsWithBudget (results : List ToolResult) (config : ToolResultBudgetConfig) (disk : Disk)
  | responseDelivered
  | reflectionComplete
  | reset

/-- A machine with the number of tool rounds accepted since the last accepted user message. -/
structure FsmRun where
  fsm : AgentFsm
  rounds : Nat

def accepted : Except ε α → Bool
  | .ok _ => true
  | .error _ => false

/-- The count goes on with an accepted round and starts again with an accepted message. -/
def FsmRun.step (host : Host) (run : FsmRun) (now : Nat) : FsmEvent → FsmRun
  | .userMessage message => ⟨(run.fsm.onUserMessage message now).1,
      if accepted (run.fsm.onUserMessage message now).2 then 0 else run.rounds⟩
  | .llmResponse outcome => ⟨(run.fsm.onLlmResponse outcome now).1, run.rounds⟩
  | .toolResults results => ⟨(run.fsm.onToolResults results now).1,
      if accepted (run.fsm.onToolResults results now).2 then run.rounds + 1 else run.rounds⟩
  | .toolResultsWithBudget results config disk =>
    let outcome := run.fsm.onToolResultsWithBudget host results config disk now
    ⟨outcome.1, if accepted outcome.2.2 then run.rounds + 1 else run.rounds⟩
  | .responseDelivered => ⟨(run.fsm.onResponseDelivered now).1, run.rounds⟩
  | .reflectionComplete => ⟨(run.fsm.onReflectionComplete now).1, run.rounds⟩
  | .reset => ⟨run.fsm.reset now, run.rounds⟩

/-- A machine fed the events one after the other, each at its clock reading. -/
def FsmRun.after (host : Host) (config : FsmConfig) (events : List (Nat × FsmEvent)) : FsmRun :=
  events.foldl (fun run event => run.step host event.1 event.2) ⟨.new config, 0⟩

end Zaion.Agent
