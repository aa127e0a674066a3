import Mathlib.Logic.Function.Basic
import Mathlib.Data.List.Basic

/-! `ApprovalChain`: four maps, each behind its own lock, and the calls that work on them.
A call of `request_approval` takes several locks one after the other, so it is a thread with a
program counter; every other call is one locked section. A `System` is the chain together
with the calls under way, and one `step` is one locked section or one move of a channel. -/
namespace Zaion.Approval

inductive ApprovalScope where
  | once
  | session
  | permanent
  deriving DecidableEq, Repr

inductive ApprovalDecision where
  | approved
  | denied
  | timeout
  deriving DecidableEq, Repr

structure ApprovalRequest where
  requestId : String
  sessionKey : String
  command : String
  reason : String
  createdAt : Nat
  timeoutSecs : Nat
  deriving DecidableEq, Repr

structure ApprovalResponse where
  requestId : String
  decision : ApprovalDecision
  scope : ApprovalScope
  respondedAt : Nat
  deriving DecidableEq, Repr

/-- A queued request and the sending end of its channel, named by the call that receives. -/
structure ApprovalEntry where
  request : ApprovalRequest
  responseTx : Nat
  deriving DecidableEq, Repr

structure ApprovalChain where
  pending : String → Option (List ApprovalEntry)
  sessionApprovals : String → Option (String → Option Bool)
  permanentApprovals : String → Option Bool
  history : String → Option (List ApprovalResponse)

/-- A response on its way to the call that waits for it. -/
structure Sent where
  responseTx : Nat
  response : ApprovalResponse
  deriving DecidableEq, Repr

def ApprovalEntry.send (decision : ApprovalDecision) (scope : ApprovalScope) (now : Nat)
    (entry : ApprovalEntry) : Sent :=
  ⟨entry.responseTx, ⟨entry.request.requestId, decision, scope, now⟩⟩

namespace ApprovalChain

def new : ApprovalChain := ⟨fun _ => none, fun _ => none, fun _ => none, fun _ => none⟩

/-- The queue of a session, empty where the map has none. -/
def queue (chain : ApprovalChain) (sessionKey : String) : List ApprovalEntry :=
  (chain.pending sessionKey).getD []

def permanentlyApproved (chain : ApprovalChain) (command : String) : Bool :=
  (chain.permanentApprovals command).getD false

def sessionApproved (chain : ApprovalChain) (sessionKey command : String) : Bool :=
  match chain.sessionApprovals sessionKey with
  | some sessionMap => (sessionMap command).getD false
  | none => false

/-- `is_pre_approved`, whose two halves take two locks. -/
def isPreApproved (chain : ApprovalChain) (sessionKey command : String) : Bool :=
  chain.permanentlyApproved command || chain.sessionApproved sessionKey command

/-- The locked section of `request_approval` that queues the request. -/
def enqueue (chain : ApprovalChain) (call : Nat) (request : ApprovalRequest) : ApprovalChain :=
  { chain with pending := (Function.update chain.pending request.sessionKey
      (some (chain.queue request.sessionKey ++ [⟨request, call⟩]))) }

/-- The chain left, the responses sent and the number of requests resolved. -/
def resolveApproval (chain : ApprovalChain) (sessionKey : String) (decision : ApprovalDecision)
    (scope : ApprovalScope) (resolveAll : Bool) (now : Nat) : ApprovalChain × List Sent × Nat :=
  match chain.pending sessionKey with
  | none => (chain, [], 0)
  | some queue =>
    if resolveAll then
      ({ chain with pending := (Function.update chain.pending sessionKey (some [])) },
        queue.map (ApprovalEntry.send decision scope now), queue.length)
    else
      match queue with
      | [] => (chain, [], 0)
      | entry :: rest =>
        ({ chain with pending := (Function.update chain.pending sessionKey (some rest)) },
          [entry.send decision scope now], 1)

/-- Takes the whole queue out of the map and denies every request in it. -/
def clearSession (chain : ApprovalChain) (sessionKey : String) (now : Nat) :
    ApprovalChain × List Sent × Nat :=
  match chain.pending sessionKey with
  | none => (chain, [], 0)
  | some queue =>
    ({ chain with pending := (Function.update chain.pending sessionKey none) },
      queue.map (ApprovalEntry.send .denied .once now), queue.length)

def clearSessionApprovals (chain : ApprovalChain) (sessionKey : String) : ApprovalChain :=
  { chain with sessionApprovals := (Function.update chain.sessionApprovals sessionKey none) }

def applyApprovalScope (chain : ApprovalChain) (sessionKey command : String)
    (response : ApprovalResponse) : ApprovalChain :=
  if response.decision ≠ .approved then chain
  else match response.scope with
    | .once => chain
    | .session =>
      { chain with sessionApprovals := (Function.update chain.sessionApprovals sessionKey
          (some (Function.update ((chain.sessionApprovals sessionKey).getD fun _ => none)
            command (some true)))) }
    | .permanent =>
      { chain with permanentApprovals :=
          (Function.update chain.permanentApprovals command (some true)) }

def removePendingRequest (chain : ApprovalChain) (sessionKey requestId : String) : ApprovalChain :=
  match chain.pending sessionKey with
  | none => chain
  | some queue =>
    { chain with pending := (Function.update chain.pending sessionKey
        (some (queue.filter fun entry => entry.request.requestId ≠ requestId))) }

/-- Keeps the last 100 responses of the session. -/
def addToHistory (chain : ApprovalChain) (sessionKey : String) (response : ApprovalResponse) :
    ApprovalChain :=
  let responses := (chain.history sessionKey).getD [] ++ [response]
  { chain with history := (Function.update chain.history sessionKey
      (some (responses.drop (responses.length - 100)))) }

end ApprovalChain

/-- Where a call of `request_approval` stands: each constructor names the next thing it does. -/
inductive Phase where
  | checkPermanent
  | checkSession
  | enqueue
  /-- In `recv_timeout`. -/
  | waiting
  /-- A response came; its scope is stored next. -/
  | received (response : ApprovalResponse)
  /-- The scope is stored; the history is written next. -/
  | applied (response : ApprovalResponse)
  /-- `recv_timeout` gave up; the entry is removed next. -/
  | timedOut
  /-- The entry is removed; the history is written next. -/
  | withdrawn
  | returned (result : Except String ApprovalResponse)
  deriving Repr

structure Call where
  request : ApprovalRequest
  phase : Phase
  channel : List ApprovalResponse
  deriving Repr

/-- What the locked sections did, in their order. The chain does not keep this; it is what
the statements speak about. -/
inductive Event where
  | arrived (call : Nat) (request : ApprovalRequest)
  /-- `resolve_approval` or `clear_session` of the session popped the call's entry. -/
  | taken (call : Nat) (sessionKey : String) (response : ApprovalResponse)
  /-- `remove_pending_request` dropped the call's entry. -/
  | dropped (call : Nat)
  | stored (call : Nat) (request : ApprovalRequest) (scope : ApprovalScope)
  | preApproved (call : Nat) (request : ApprovalRequest)
  | returned (call : Nat) (request : ApprovalRequest) (result : Except String ApprovalResponse)
  | cleared (sessionKey : String)
  deriving Repr

structure System where
  chain : ApprovalChain
  calls : List Call
  log : List Event

inductive Action where
  | requestApproval (request : ApprovalRequest)
  /-- The call takes its next step, unless it waits on an empty channel. -/
  | proceed (call : Nat) (now : Nat)
  /-- `recv_timeout` of the call finds its channel empty and gives up. -/
  | expire (call : Nat)
  | resolveApproval (sessionKey : String) (decision : ApprovalDecision) (scope : ApprovalScope)
      (resolveAll : Bool) (now : Nat)
  | clearSession (sessionKey : String) (now : Nat)
  | clearSessionApprovals (sessionKey : String)
  deriving Repr

def deliver (calls : List Call) (sent : Sent) : List Call :=
  calls.modify sent.responseTx fun call => { call with channel := call.channel ++ [sent.response] }

namespace System

def start : System := ⟨.new, [], []⟩

/-- The call goes on to `phase`. -/
def goto (system : System) (i : Nat) (phase : Phase) : System :=
  { system with calls := (system.calls.modify i fun call => { call with phase := phase }) }

def record (system : System) (events : List Event) : System :=
  { system with log := system.log ++ events }

def withChain (system : System) (chain : ApprovalChain) : System := { system with chain := chain }

/-- The call returns. -/
def finish (system : System) (i : Nat) (request : ApprovalRequest)
    (result : Except String ApprovalResponse) : System :=
  (system.goto i (.returned result)).record [.returned i request result]

/-- `request_approval` returns at once for a command that `is_pre_approved`. -/
def passPreApproved (system : System) (i : Nat) (request : ApprovalRequest) (now : Nat) : System :=
  (system.record [.preApproved i request]).finish i request
    (.ok ⟨request.requestId, .approved, .session, now⟩)

/-- The next locked section of a call of `request_approval`. -/
def proceed (system : System) (i : Nat) (call : Call) (now : Nat) : System :=
  let request := call.request
  match call.phase with
  | .checkPermanent =>
    if system.chain.permanentlyApproved request.command then system.passPreApproved i request now
    else system.goto i .checkSession
  | .checkSession =>
    if system.chain.sessionApproved request.sessionKey request.command then
      system.passPreApproved i request now
    else system.goto i .enqueue
  | .enqueue =>
    ((system.withChain (system.chain.enqueue i request)).goto i .waiting).record [.arrived i request]
  | .waiting =>
    match call.channel with
    | [] => system
    | response :: rest =>
      { system with calls := (system.calls.modify i fun call =>
          { call with phase := .received response, channel := rest }) }
  | .received response =>
    ((system.withChain (system.chain.applyApprovalScope request.sessionKey request.command response)).goto
      i (.applied response)).record
        (if response.decision = .approved ∧ response.scope ≠ .once then
          [.stored i request response.scope] else [])
  | .applied response =>
    (system.withChain (system.chain.addToHistory request.sessionKey response)).finish i request
      (.ok response)
  | .timedOut =>
    ((system.withChain (system.chain.removePendingRequest request.sessionKey request.requestId)).goto
      i .withdrawn).record
        (((system.chain.queue request.sessionKey).filter fun entry =>
          entry.request.requestId = request.requestId).map fun entry => .dropped entry.responseTx)
  | .withdrawn =>
    (system.withChain (system.chain.addToHistory request.sessionKey
      ⟨request.requestId, .timeout, .once, now⟩)).finish i request
        (.error "Approval request timed out")
  | .returned _ => system

/-- Responses leave the queue and reach their channels under the lock of the queue. -/
def send (system : System) (sessionKey : String) (chain : ApprovalChain) (sent : List Sent) : System :=
  ⟨chain, sent.foldl deliver system.calls,
    system.log ++ sent.map fun message => .taken message.responseTx sessionKey message.response⟩

def step (system : System) : Action → System
  | .requestApproval request =>
    { system with calls := system.calls ++ [⟨request, .checkPermanent, []⟩] }
  | .proceed i now =>
    match system.calls[i]? with
    | some call => system.proceed i call now
    | none => system
  | .expire i =>
    match system.calls[i]? with
    | some ⟨_, .waiting, []⟩ => system.goto i .timedOut
    | _ => system
  | .resolveApproval sessionKey decision scope resolveAll now =>
    let (chain, sent, _) := system.chain.resolveApproval sessionKey decision scope resolveAll now
    system.send sessionKey chain sent
  | .clearSession sessionKey now =>
    let (chain, sent, _) := system.chain.clearSession sessionKey now
    system.send sessionKey chain sent
  | .clearSessionApprovals sessionKey =>
    (system.withChain (system.chain.clearSessionApprovals sessionKey)).record [.cleared sessionKey]

/-- Any number of calls, their steps interleaved in the order of the list. -/
def run (system : System) (actions : List Action) : System := actions.foldl step system

end System

/-- The entries an action pops from the queue. -/
def Action.takes (chain : ApprovalChain) : Action → List ApprovalEntry
  | .resolveApproval sessionKey _ _ resolveAll _ =>
    if resolveAll then chain.queue sessionKey else (chain.queue sessionKey).take 1
  | .clearSession sessionKey _ => chain.queue sessionKey
  | _ => []

/-- Entries taken from the front of one session's queue, and nothing else changed. -/
structure Takes (chain : ApprovalChain) (sessionKey : String) (front : List ApprovalEntry)
    (after : ApprovalChain) : Prop where
  split : chain.queue sessionKey = front ++ after.queue sessionKey
  others : ∀ other, other ≠ sessionKey → after.pending other = chain.pending other
  sessions : after.sessionApprovals = chain.sessionApprovals
  permanents : after.permanentApprovals = chain.permanentApprovals

namespace ApprovalChain

variable {chain : ApprovalChain} {sessionKey other : String}

theorem queue_some {queue : List ApprovalEntry} (found : chain.pending sessionKey = some queue) :
    chain.queue sessionKey = queue := by simp [ApprovalChain.queue,found]

theorem queue_update (queue : Option (List ApprovalEntry)) :
    ({ chain with pending := Function.update chain.pending sessionKey queue } : ApprovalChain).queue other =
      if other = sessionKey then queue.getD [] else chain.queue other := by
  by_cases same : other = sessionKey
  · subst same
    simp [ApprovalChain.queue]
  · simp [ApprovalChain.queue,same]

theorem takes_update {front rest : List ApprovalEntry} {queue : Option (List ApprovalEntry)}
    (split : chain.queue sessionKey = front ++ rest) (left : queue.getD [] = rest) :
    Takes chain sessionKey front { chain with pending := Function.update chain.pending sessionKey queue } := by
  constructor
  · rw [queue_update,if_pos rfl,left]
    exact split
  · exact fun other distinct => Function.update_of_ne distinct _ _
  · rfl
  · rfl

theorem takes_nothing : Takes chain sessionKey [] chain := ⟨rfl, fun _ _ => rfl, rfl, rfl⟩

theorem resolveApproval_spec (chain : ApprovalChain) (sessionKey : String) (decision : ApprovalDecision)
    (scope : ApprovalScope) (all : Bool) (now : Nat) :
    Takes chain sessionKey ((Action.resolveApproval sessionKey decision scope all now).takes chain)
      (chain.resolveApproval sessionKey decision scope all now).1 ∧
    (chain.resolveApproval sessionKey decision scope all now).2.1 =
      ((Action.resolveApproval sessionKey decision scope all now).takes chain).map
        (ApprovalEntry.send decision scope now) ∧
    (chain.resolveApproval sessionKey decision scope all now).2.2 =
      ((Action.resolveApproval sessionKey decision scope all now).takes chain).length := by
  simp only [Action.takes,resolveApproval]
  cases found : chain.pending sessionKey with
  | none => simpa [ApprovalChain.queue,found] using takes_nothing
  | some queue =>
    rw [queue_some found]
    cases all with
    | true => exact ⟨takes_update (by simp [queue_some found]) rfl, rfl, rfl⟩
    | false =>
      cases queue with
      | nil => exact ⟨takes_nothing, rfl, rfl⟩
      | cons entry rest => exact ⟨takes_update (queue_some found) rfl, rfl, rfl⟩

theorem clearSession_spec (chain : ApprovalChain) (sessionKey : String) (now : Nat) :
    Takes chain sessionKey ((Action.clearSession sessionKey now).takes chain)
      (chain.clearSession sessionKey now).1 ∧
    (chain.clearSession sessionKey now).2.1 =
      ((Action.clearSession sessionKey now).takes chain).map (ApprovalEntry.send .denied .once now) ∧
    (chain.clearSession sessionKey now).2.2 = ((Action.clearSession sessionKey now).takes chain).length := by
  simp only [Action.takes,clearSession]
  cases found : chain.pending sessionKey with
  | none => simpa [ApprovalChain.queue,found] using takes_nothing
  | some queue =>
    rw [queue_some found]
    exact ⟨takes_update (by simp [queue_some found]) rfl, rfl, rfl⟩

theorem enqueue_queue (call : Nat) (request : ApprovalRequest) :
    (chain.enqueue call request).queue other = if other = request.sessionKey then
      chain.queue request.sessionKey ++ [⟨request, call⟩] else chain.queue other := queue_update _

theorem removePendingRequest_queue (requestId : String) :
    (chain.removePendingRequest sessionKey requestId).queue other = if other = sessionKey then
      (chain.queue sessionKey).filter (fun entry => entry.request.requestId ≠ requestId)
      else chain.queue other := by
  rw [removePendingRequest]
  cases found : chain.pending sessionKey with
  | none =>
    by_cases same : other = sessionKey
    · subst same
      simp [ApprovalChain.queue,found]
    · rw [if_neg same]
  | some queue =>
    rw [queue_some found]
    exact queue_update _

theorem removePendingRequest_approvals (chain : ApprovalChain) (sessionKey requestId : String) :
    (chain.removePendingRequest sessionKey requestId).sessionApprovals = chain.sessionApprovals ∧
    (chain.removePendingRequest sessionKey requestId).permanentApprovals = chain.permanentApprovals := by
  rw [removePendingRequest]
  cases chain.pending sessionKey <;> exact ⟨rfl, rfl⟩

theorem applyApprovalScope_pending (command : String) (response : ApprovalResponse) :
    (chain.applyApprovalScope sessionKey command response).pending = chain.pending := by
  rw [applyApprovalScope]
  split
  · rfl
  · cases response.scope <;> rfl

theorem applyApprovalScope_permanent {command other : String} {response : ApprovalResponse}
    (approved : (chain.applyApprovalScope sessionKey command response).permanentlyApproved other) :
    chain.permanentlyApproved other ∨
      other = command ∧ response.decision = .approved ∧ response.scope = .permanent := by
  rw [applyApprovalScope] at approved
  split at approved
  · exact .inl approved
  · rename_i decided
    cases granted : response.scope with
    | once | session =>
      rw [granted] at approved
      exact .inl approved
    | permanent =>
      by_cases same : other = command
      · exact .inr ⟨same, not_not.mp decided, rfl⟩
      · rw [granted] at approved
        left
        simpa [permanentlyApproved,same] using approved

theorem applyApprovalScope_session {command s other : String} {response : ApprovalResponse}
    (approved : (chain.applyApprovalScope sessionKey command response).sessionApproved s other) :
    chain.sessionApproved s other ∨ s = sessionKey ∧ other = command ∧
      response.decision = .approved ∧ response.scope = .session := by
  rw [applyApprovalScope] at approved
  split at approved
  · exact .inl approved
  · rename_i decided
    cases granted : response.scope with
    | once | permanent =>
      rw [granted] at approved
      exact .inl approved
    | session =>
      rw [granted] at approved
      by_cases own : s = sessionKey
      · by_cases same : other = command
        · exact .inr ⟨own, same, not_not.mp decided, rfl⟩
        · left
          subst own
          cases found : chain.sessionApprovals s <;> simp_all [sessionApproved]
      · left
        simpa [sessionApproved,own] using approved

theorem clearSessionApprovals_session {s command : String}
    (approved : (chain.clearSessionApprovals sessionKey).sessionApproved s command) :
    s ≠ sessionKey ∧ chain.sessionApproved s command := by
  by_cases own : s = sessionKey
  · subst own
    simp [clearSessionApprovals,sessionApproved] at approved
  · exact ⟨own, by simpa [clearSessionApprovals,sessionApproved,own] using approved⟩

end ApprovalChain

/-- A call goes on without a lock of its own changing anything. -/
inductive Moves : Call → Phase → Prop where
  | permanentChecked : Moves ⟨request, .checkPermanent, channel⟩ .checkSession
  | sessionChecked : Moves ⟨request, .checkSession, channel⟩ .enqueue
  | gaveUp : Moves ⟨request, .waiting, []⟩ .timedOut

/-- What a scope leaves in the log when it is stored. -/
def storing (i : Nat) (request : ApprovalRequest) (response : ApprovalResponse) : List Event :=
  if response.decision = .approved ∧ response.scope ≠ .once then [.stored i request response.scope] else []

/-- Calls whose entries `remove_pending_request` drops. -/
def dropping (chain : ApprovalChain) (request : ApprovalRequest) : List Nat :=
  ((chain.queue request.sessionKey).filter fun entry =>
    entry.request.requestId = request.requestId).map (·.responseTx)

/-- All a step can do, with what held when it was taken. -/
inductive Step (system : System) : Action → System → Prop where
  | idle : Step system action system
  | began : Step system action
      { system with calls := system.calls ++ [⟨request, .checkPermanent, []⟩] }
  | moved (found : system.calls[i]? = some call) (moves : Moves call phase) :
      Step system action (system.goto i phase)
  | passed (found : system.calls[i]? = some call)
      (early : call.phase = .checkPermanent ∨ call.phase = .checkSession)
      (approved : system.chain.isPreApproved call.request.sessionKey call.request.command) :
      Step system action (system.passPreApproved i call.request now)
  | enqueued (found : system.calls[i]? = some call) (phase : call.phase = .enqueue) :
      Step system action (((system.withChain (system.chain.enqueue i call.request)).goto
        i .waiting).record [.arrived i call.request])
  | received (found : system.calls[i]? = some call) (phase : call.phase = .waiting)
      (message : call.channel = response :: rest) :
      Step system action { system with calls := system.calls.modify i fun call =>
        { call with phase := .received response, channel := rest } }
  | applied (found : system.calls[i]? = some call) (phase : call.phase = .received response) :
      Step system action (((system.withChain (system.chain.applyApprovalScope
        call.request.sessionKey call.request.command response)).goto i (.applied response)).record
          (storing i call.request response))
  | finished (found : system.calls[i]? = some call) (phase : call.phase = .applied response) :
      Step system action ((system.withChain (system.chain.addToHistory
        call.request.sessionKey response)).finish i call.request (.ok response))
  | withdrew (found : system.calls[i]? = some call) (phase : call.phase = .timedOut) :
      Step system action (((system.withChain (system.chain.removePendingRequest
        call.request.sessionKey call.request.requestId)).goto i .withdrawn).record
          ((dropping system.chain call.request).map .dropped))
  | expired (found : system.calls[i]? = some call) (phase : call.phase = .withdrawn) :
      Step system action ((system.withChain (system.chain.addToHistory call.request.sessionKey
        ⟨call.request.requestId, .timeout, .once, now⟩)).finish i call.request
          (.error "Approval request timed out"))
  | sent (decision : ApprovalDecision) (scope : ApprovalScope) (now : Nat)
      (takes : Takes system.chain sessionKey (action.takes system.chain) after) :
      Step system action (system.send sessionKey after
        ((action.takes system.chain).map (ApprovalEntry.send decision scope now)))
  | cleared : Step system (.clearSessionApprovals sessionKey)
      ((system.withChain (system.chain.clearSessionApprovals sessionKey)).record [.cleared sessionKey])

theorem System.proceed_cases {system : System} {i : Nat} {call : Call}
    (found : system.calls[i]? = some call) (now : Nat) : Step system action (system.proceed i call now) := by
  rw [System.proceed]
  obtain ⟨request, phase, channel⟩ := call
  cases phase with
  | checkPermanent =>
    dsimp only
    split
    · rename_i approved
      exact .passed found (.inl rfl) (by simp [ApprovalChain.isPreApproved,approved])
    · exact .moved found .permanentChecked
  | checkSession =>
    dsimp only
    split
    · rename_i approved
      exact .passed found (.inr rfl) (by simp [ApprovalChain.isPreApproved,approved])
    · exact .moved found .sessionChecked
  | enqueue => exact .enqueued found rfl
  | waiting =>
    cases channel with
    | nil => exact .idle
    | cons response rest => exact .received found rfl rfl
  | received response => exact .applied found rfl
  | applied response => exact .finished found rfl
  | timedOut =>
    have step : Step system action _ := .withdrew found rfl
    rwa [dropping,List.map_map] at step
  | withdrawn => exact .expired found rfl
  | returned => exact .idle

theorem System.step_cases (system : System) (action : Action) : Step system action (system.step action) := by
  cases action with
  | requestApproval request => exact .began
  | proceed i now =>
    rw [System.step]
    split
    · exact System.proceed_cases ‹_› now
    · exact .idle
  | expire i =>
    rw [System.step]
    split
    · exact .moved ‹_› .gaveUp
    · exact .idle
  | resolveApproval s decision scope all now =>
    obtain ⟨takes, sent, _⟩ := system.chain.resolveApproval_spec s decision scope all now
    have step := Step.sent decision scope now takes
    rwa [← sent] at step
  | clearSession s now =>
    obtain ⟨takes, sent, _⟩ := system.chain.clearSession_spec s now
    have step := Step.sent .denied .once now takes
    rwa [← sent] at step
  | clearSessionApprovals s => exact .cleared

end Zaion.Approval
