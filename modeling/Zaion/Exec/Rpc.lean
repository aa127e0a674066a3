import Mathlib.Data.Nat.Bitwise
import Zaion.Host
import Zaion.Lib.Json
import Zaion.Lib.Text

/-! The tool RPC bridge of the code executors. A server takes one connection after the other;
a connection is a sequence of lines, and a line is a request that is refused or dispatched. The
token, the call budget, the list of allowed tools and the audit log are shared by all of them.
The Python and the JavaScript executor differ in how they dispatch. -/
namespace Zaion.Exec

open Lib

structure UdsRpcRequest where
  tool : String
  args : Json
  token : Option String

structure UdsRpcResponse where
  result : Json

structure ToolCallRecord where
  toolName : String
  arguments : Json
  result : Json
  timestamp : String

def tokenMatches (token expectedToken : String) : Bool :=
  let tokenBytes := Host.utf8 token
  let expectedBytes := Host.utf8 expectedToken
  let maxLen := max tokenBytes.length expectedBytes.length
  let diff := (List.range maxLen).foldl
    (fun diff idx => diff ||| (tokenBytes.getD idx 0 ^^^ expectedBytes.getD idx 0).toNat)
    (tokenBytes.length ^^^ expectedBytes.length)
  decide (diff = 0)

def errorJson (message : String) : Json := .obj [("error", .str message)]

def validateRpcToken (request : UdsRpcRequest) (expectedToken : String) : Option UdsRpcResponse :=
  match request.token with
  | some token => if tokenMatches token expectedToken then none else some ⟨errorJson "RPC authentication failed"⟩
  | none => some ⟨errorJson "RPC authentication failed"⟩

/-- A tool call on the world, which it may change. -/
abbrev Tool (W : Type) := W → String → Json → W × Except String Json

/-- What a server was started with. `parse` is the decoder of requests and `clock` the time in
the log. -/
structure Bridge (W : Type) where
  dispatcher : Tool W
  sandboxTools : Tool W
  parse : String → Except String UdsRpcRequest
  clock : W → String
  maxToolCalls : Nat
  allowedTools : List String
  expectedRpcToken : String

/-- What became of a request. -/
inductive Answer where
  | unauthorized (request : UdsRpcRequest) (response : UdsRpcResponse)
  | limited (request : UdsRpcRequest)
  | forbidden (request : UdsRpcRequest)
  | dispatched (request : UdsRpcRequest) (result : Except String Json)

/-- The shared state, and beside it every answer given so far. -/
structure Served (W : Type) where
  toolCallCounter : Nat
  toolCallLog : List ToolCallRecord
  world : W
  answers : List Answer

/-- What reading the next line gives: a line, with what the write of a response to it gives, or
an error of its kind. -/
inductive Event where
  | line (text : String) (writeError : Option String)
  | timedOut (shutdown : Bool)
  | closed
  | failed (error : String)

/-- What an accept gives: a connection with the errors of its setup, or none. -/
inductive Accepted where
  | stream (blockingError setupError : Option String) (events : List Event)
  | wouldBlock
  | failed (error : String)

variable {W : Type}

def resultJson : Except String Json → Json
  | .ok value => value
  | .error e => errorJson e

/-- The response line of an answer. -/
def Answer.response (b : Bridge W) : Answer → UdsRpcResponse
  | .unauthorized _ response => response
  | .limited _ => ⟨errorJson ("Tool call limit exceeded (max: " ++ toString b.maxToolCalls ++ ")")⟩
  | .forbidden request => ⟨errorJson ("Tool '" ++ request.tool ++ "' not allowed")⟩
  | .dispatched _ result => ⟨resultJson result⟩

namespace Bridge

/-- The Python executor keeps some tools to itself. -/
def pythonDispatch (b : Bridge W) : Tool W := fun world tool args =>
  if tool = "read_file" ∨ tool = "write_file" ∨ tool = "terminal" then b.dispatcher world tool args
  else if tool = "web_search" ∨ tool = "web_extract" ∨ tool = "search_files" ∨ tool = "patch" then
    b.sandboxTools world tool args
  else (world, .error ("Unknown tool: " ++ tool))

def jsDispatch (b : Bridge W) : Tool W := b.dispatcher

/-- A decoded request, up to its answer. -/
def answer (b : Bridge W) (dispatch : Tool W) (s : Served W) (request : UdsRpcRequest) : Served W :=
  match validateRpcToken request b.expectedRpcToken with
  | some response => { s with answers := s.answers ++ [.unauthorized request response] }
  | none =>
    if b.maxToolCalls ≤ s.toolCallCounter then { s with answers := s.answers ++ [.limited request] }
    else if request.tool ∉ b.allowedTools then
      { s with toolCallCounter := s.toolCallCounter + 1, answers := s.answers ++ [.forbidden request] }
    else
      let (world, result) := dispatch s.world request.tool request.args
      { toolCallCounter := s.toolCallCounter + 1
        toolCallLog := s.toolCallLog ++ [⟨request.tool, request.args, resultJson result, b.clock world⟩]
        world := world
        answers := s.answers ++ [.dispatched request result] }

/-- One connection, up to its end. -/
def handleConnection (b : Bridge W) (dispatch : Tool W) (s : Served W) : List Event → Served W × Except String Unit
  | [] => (s, .ok ())
  | .timedOut shutdown :: rest => if shutdown then (s, .ok ()) else b.handleConnection dispatch s rest
  | .closed :: _ => (s, .ok ())
  | .failed e :: _ => (s, .error e)
  | .line text writeError :: rest =>
    if trim text = "" then b.handleConnection dispatch s rest
    else
      match b.parse text with
      | .error e => (s, .error ("Failed to parse RPC request: " ++ e))
      | .ok request =>
        match writeError with
        | some e => (b.answer dispatch s request, .error e)
        | none => b.handleConnection dispatch (b.answer dispatch s request) rest

/-- A connection with what can go wrong before the first line. -/
def serveStream (b : Bridge W) (dispatch : Tool W) (s : Served W) (setupError : Option String) (events : List Event) :
    Served W :=
  match setupError with
  | some _ => s
  | none => (b.handleConnection dispatch s events).1

/-- The loop of a server, with the shutdown flag it loads before each accept. -/
def serverLoop (b : Bridge W) (tcp : Bool) (dispatch : Tool W) (s : Served W) : List (Bool × Accepted) → Served W
  | [] => s
  | (true, _) :: _ => s
  | (false, .wouldBlock) :: rest => b.serverLoop tcp dispatch s rest
  | (false, .failed _) :: _ => s
  | (false, .stream blockingError setupError events) :: rest =>
    if tcp = true ∧ blockingError.isSome = true then b.serverLoop tcp dispatch s rest
    else b.serverLoop tcp dispatch (b.serveStream dispatch s setupError events) rest

def start (world : W) : Served W := ⟨0, [], world, []⟩

end Bridge

namespace UdsCodeExecutor

def rpcServerLoop (b : Bridge W) (world : W) : List (Bool × Accepted) → Served W :=
  b.serverLoop false b.pythonDispatch (Bridge.start world)

def tcpRpcServerLoop (b : Bridge W) (world : W) : List (Bool × Accepted) → Served W :=
  b.serverLoop true b.pythonDispatch (Bridge.start world)

end UdsCodeExecutor

namespace JsCodeExecutor

def rpcServerLoop (b : Bridge W) (world : W) : List (Bool × Accepted) → Served W :=
  b.serverLoop false b.jsDispatch (Bridge.start world)

def tcpRpcServerLoop (b : Bridge W) (world : W) : List (Bool × Accepted) → Served W :=
  b.serverLoop true b.jsDispatch (Bridge.start world)

end JsCodeExecutor

theorem foldl_or_eq_zero (f : Nat → Nat) (init : Nat) (indices : List Nat) :
    indices.foldl (fun diff idx => diff ||| f idx) init = 0 ↔ init = 0 ∧ ∀ idx ∈ indices, f idx = 0 := by
  induction indices generalizing init with
  | nil => simp
  | cons idx rest ih => simp [ih,Nat.or_eq_zero_iff,and_assoc]

/-- The loop without early exit finds every difference. -/
theorem tokenMatches_iff (token expected : String) : tokenMatches token expected = true ↔ token = expected := by
  simp only [tokenMatches,decide_eq_true_eq]
  rw [foldl_or_eq_zero]
  constructor
  · rintro ⟨lengths, bytes⟩
    apply toByteArray_toList_injective
    apply List.ext_getElem (Nat.eq_of_xor_eq_zero lengths)
    intro idx inLeft inRight
    have equal := bytes idx (List.mem_range.mpr (lt_max_of_lt_left inLeft))
    rw [List.getD_eq_getElem _ _ inLeft,List.getD_eq_getElem _ _ inRight,UInt8.toNat_xor] at equal
    exact UInt8.toNat_inj.mp (Nat.eq_of_xor_eq_zero equal)
  · rintro rfl
    simp

theorem validateRpcToken_none {request : UdsRpcRequest} {expected : String} :
    validateRpcToken request expected = none ↔ request.token = some expected := by
  unfold validateRpcToken
  cases request.token with
  | none => simp
  | some token => simp [tokenMatches_iff]

/-- The request and its result, of a request that was dispatched. -/
def Answer.call : Answer → Option (UdsRpcRequest × Except String Json)
  | .dispatched request result => some (request, result)
  | _ => none

/-- The answer used a call of the budget. -/
def Answer.counted : Answer → Bool
  | .forbidden _ | .dispatched _ _ => true
  | _ => false

/-- What an answer says of its request. -/
def Answer.Justified (b : Bridge W) : Answer → Prop
  | .unauthorized request _ => request.token ≠ some b.expectedRpcToken
  | .limited request => request.token = some b.expectedRpcToken
  | .forbidden request => request.token = some b.expectedRpcToken ∧ request.tool ∉ b.allowedTools
  | .dispatched request _ => request.token = some b.expectedRpcToken ∧ request.tool ∈ b.allowedTools

def Served.calls (s : Served W) : List (UdsRpcRequest × Except String Json) := s.answers.filterMap Answer.call

/-- What the log says of a call. -/
def ToolCallRecord.call (record : ToolCallRecord) : String × Json × Json := (record.toolName, record.arguments, record.result)

def logged (call : UdsRpcRequest × Except String Json) : String × Json × Json :=
  (call.1.tool, call.1.args, resultJson call.2)

/-- The limits of the bridge: the budget, the token and the tools of what was dispatched, and the
log of it; a wrong token costs nothing. -/
structure Enforced (b : Bridge W) (s : Served W) : Prop where
  budget : s.toolCallCounter ≤ b.maxToolCalls
  justified : ∀ answer ∈ s.answers, answer.Justified b
  counter : s.toolCallCounter = s.answers.countP Answer.counted
  log : s.toolCallLog.map ToolCallRecord.call = s.calls.map logged

variable {b : Bridge W} {dispatch : Tool W} {s s' : Served W}

theorem calls_le_counted (answers : List Answer) : (answers.filterMap Answer.call).length ≤ answers.countP Answer.counted := by
  induction answers with
  | nil => exact Nat.le_refl 0
  | cons answer rest ih =>
    rw [List.filterMap_cons,List.countP_cons]
    cases answer <;> simp only [Answer.call,Answer.counted,List.length_cons] <;> simp <;> omega

theorem Enforced.dispatched (kept : Enforced b s) : s.calls.length ≤ b.maxToolCalls :=
  calc s.calls.length ≤ s.answers.countP Answer.counted := calls_le_counted s.answers
    _ = s.toolCallCounter := kept.counter.symm
    _ ≤ b.maxToolCalls := kept.budget

theorem start_enforced (world : W) : Enforced b (Bridge.start world) where
  budget := Nat.zero_le _
  justified := nofun
  counter := rfl
  log := rfl

/-- One more answer, counted and logged as it has to be. -/
theorem Enforced.add (kept : Enforced b s) (added : Answer) (here : added.Justified b)
    (room : added.counted = true → s.toolCallCounter < b.maxToolCalls) (answers : s'.answers = s.answers ++ [added])
    (counter : s'.toolCallCounter = s.toolCallCounter + if added.counted = true then 1 else 0)
    (log : s'.toolCallLog.map ToolCallRecord.call =
      s.toolCallLog.map ToolCallRecord.call ++ added.call.toList.map logged) : Enforced b s' where
  budget := by
    have := kept.budget
    rw [counter]
    split
    · exact room ‹_›
    · omega
  justified := by
    intro answer member
    rw [answers] at member
    rcases List.mem_append.mp member with old | new
    · exact kept.justified answer old
    · exact List.mem_singleton.mp new ▸ here
  counter := by rw [counter,answers,List.countP_append,List.countP_singleton,kept.counter]
  log := by
    rw [log,kept.log,Served.calls,Served.calls,answers,List.filterMap_append,List.map_append]
    cases found : added.call <;> simp [found]

/-- One request keeps the limits. -/
theorem Enforced.answer (kept : Enforced b s) (request : UdsRpcRequest) : Enforced b (b.answer dispatch s request) := by
  unfold Bridge.answer
  split
  · rename_i response refused
    have wrong : request.token ≠ some b.expectedRpcToken := by
      intro right
      rw [validateRpcToken_none.mpr right] at refused
      cases refused
    exact kept.add (.unauthorized request response) wrong nofun rfl rfl (List.append_nil _).symm
  · rename_i accepted
    have right := validateRpcToken_none.mp accepted
    split
    · exact kept.add (.limited request) right nofun rfl rfl (List.append_nil _).symm
    · rename_i room
      split
      · rename_i outside
        exact kept.add (.forbidden request) ⟨right, outside⟩ (fun _ => Nat.lt_of_not_le room) rfl rfl
          (List.append_nil _).symm
      · rename_i inside
        apply kept.add (.dispatched request (dispatch s.world request.tool request.args).2)
          ⟨right, not_not.mp inside⟩ (fun _ => Nat.lt_of_not_le room) rfl rfl
        simp [ToolCallRecord.call,Answer.call,logged]

theorem Enforced.handleConnection (kept : Enforced b s) (events : List Event) :
    Enforced b (b.handleConnection dispatch s events).1 := by
  fun_induction Bridge.handleConnection b dispatch s events with
  | case1 => exact kept
  | case2 => exact kept
  | case3 s shutdown rest running ih => exact ih kept
  | case4 => exact kept
  | case5 => exact kept
  | case6 s text writeError rest blank ih => exact ih kept
  | case7 => exact kept
  | case8 s text rest shown request decoded e => exact kept.answer request
  | case9 s text rest shown request decoded ih => exact ih (kept.answer request)

theorem Enforced.serverLoop {tcp : Bool} (kept : Enforced b s) (accepts : List (Bool × Accepted)) :
    Enforced b (b.serverLoop tcp dispatch s accepts) := by
  fun_induction Bridge.serverLoop b tcp dispatch s accepts with
  | case1 => exact kept
  | case2 => exact kept
  | case3 s rest ih => exact ih kept
  | case4 => exact kept
  | case5 s blockingError setupError events rest blocked ih => exact ih kept
  | case6 s blockingError setupError events rest blocked ih =>
    apply ih
    cases setupError with
    | some e => exact kept
    | none => exact kept.handleConnection events

/-- The answer without the result of a dispatch. -/
inductive Verdict where
  | unauthorized
  | limited
  | forbidden
  | dispatched
  deriving DecidableEq

def Answer.verdict : Answer → Verdict × UdsRpcRequest
  | .unauthorized request _ => (.unauthorized, request)
  | .limited request => (.limited, request)
  | .forbidden request => (.forbidden, request)
  | .dispatched request _ => (.dispatched, request)

/-- Two servers took and refused the same requests and have the same budget left. -/
structure Agree (s t : Served W) : Prop where
  verdicts : s.answers.map Answer.verdict = t.answers.map Answer.verdict
  counter : s.toolCallCounter = t.toolCallCounter

variable {other : Tool W} {t : Served W}

theorem Agree.answer (agree : Agree s t) (request : UdsRpcRequest) :
    Agree (b.answer dispatch s request) (b.answer other t request) := by
  obtain ⟨verdicts, counter⟩ := agree
  unfold Bridge.answer
  rw [← counter]
  split
  · exact ⟨by simp [verdicts,Answer.verdict], rfl⟩
  · split
    · exact ⟨by simp [verdicts,Answer.verdict], rfl⟩
    · split
      · exact ⟨by simp [verdicts,Answer.verdict], rfl⟩
      · exact ⟨by simp [verdicts,Answer.verdict], rfl⟩

theorem Agree.handleConnection (agree : Agree s t) (events : List Event) :
    Agree (b.handleConnection dispatch s events).1 (b.handleConnection other t events).1 := by
  induction events generalizing s t with
  | nil => exact agree
  | cons event rest ih =>
    cases event with
    | timedOut shutdown =>
      cases shutdown with
      | true => exact agree
      | false => exact ih agree
    | closed => exact agree
    | failed e => exact agree
    | line text writeError =>
      unfold Bridge.handleConnection
      split
      · exact ih agree
      · split
        · exact agree
        · rename_i request decoded
          cases writeError with
          | some e => exact agree.answer request
          | none => exact ih (agree.answer request)

theorem Agree.serverLoop {tcp : Bool} (agree : Agree s t) (accepts : List (Bool × Accepted)) :
    Agree (b.serverLoop tcp dispatch s accepts) (b.serverLoop tcp other t accepts) := by
  induction accepts generalizing s t with
  | nil => exact agree
  | cons first rest ih =>
    obtain ⟨_ | _, accepted⟩ := first
    · cases accepted with
      | stream blockingError setupError events =>
        unfold Bridge.serverLoop
        split
        · exact ih agree
        · apply ih
          cases setupError with
          | some e => exact agree
          | none => exact agree.handleConnection events
      | wouldBlock => exact ih agree
      | failed e => exact agree
    · exact agree

/-- The bridge keeps its limits over every sequence of connections and lines, and the Python and
the JavaScript server take and refuse the same requests. -/
theorem rpc_limits (b : Bridge W) (world : W) (accepts : List (Bool × Accepted)) :
    (∀ loop ∈ [UdsCodeExecutor.rpcServerLoop, UdsCodeExecutor.tcpRpcServerLoop, JsCodeExecutor.rpcServerLoop,
        JsCodeExecutor.tcpRpcServerLoop],
      Enforced b (loop b world accepts) ∧ (loop b world accepts).calls.length ≤ b.maxToolCalls) ∧
    Agree (UdsCodeExecutor.rpcServerLoop b world accepts) (JsCodeExecutor.rpcServerLoop b world accepts) ∧
    Agree (UdsCodeExecutor.tcpRpcServerLoop b world accepts) (JsCodeExecutor.tcpRpcServerLoop b world accepts) := by
  have same : Agree (Bridge.start world) (Bridge.start world) := ⟨rfl, rfl⟩
  refine ⟨?_, same.serverLoop accepts, same.serverLoop accepts⟩
  intro loop member
  have kept : Enforced b (loop b world accepts) := by
    simp only [List.mem_cons,List.not_mem_nil,or_false] at member
    rcases member with rfl | rfl | rfl | rfl
    all_goals exact (start_enforced world).serverLoop accepts
  exact ⟨kept, kept.dispatched⟩

end Zaion.Exec
