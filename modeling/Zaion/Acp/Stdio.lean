import Mathlib.Data.String.Basic
import Zaion.Acp.Runs
import Zaion.Lib.Path
import Zaion.Lib.Stable
import Zaion.Turn.Envelope

/-! The agent protocol served on standard input: nine methods over the store of runs and sessions,
and for whom each of them acts. The identity store of the host holds the keys of every local
process, not only of the service's own. -/
namespace Zaion.Acp

open Lib Session Turn

def A2AError.text : A2AError → String
  | .agentNotFound id => "agent not found: " ++ id
  | .protocol message => "protocol error: " ++ message

namespace Stdio

/-- A row of `runs` with all its columns. -/
structure RunRow extends AcpRun where
  idempotencyKey : Option String
  idempotencyFingerprint : Option String
  createdAt : String
  updatedAt : String
  deriving DecidableEq, Repr

structure AcpSession where
  sessionId : String
  submitterPrincipal : String
  title : Option String
  status : String
  parentSessionId : Option String
  forkedFromSessionId : Option String
  resumeCount : Int
  createdAt : String
  updatedAt : String
  deriving DecidableEq, Repr

structure JsonRpcRequest where
  id : Option Json
  method : String
  params : Option Json

structure JsonRpcError where
  code : Int
  message : String
  deriving DecidableEq

structure AcpRuntimeDispatchRequest where
  runId : String
  task : String
  submitterPrincipal : String
  envelope : CanonicalEnvelope

structure AcpRuntimeResult where
  responseText : String
  runtimeWarnings : List String
  ingressEventId : String
  outputEventId : String
  answerTraceEventId : String
  turnProofEventId : String
  toolReceiptIds : List String
  toolReceiptCount : Nat
  toolResultStorageReceipts : List Json
  toolResultStorageReceiptCount : Nat
  toolReceiptProofJoinEventId : Option String
  toolReceiptProofJoin : Option Json
  toolReceiptJoinFound : Bool
  toolReceiptProofHashVerified : Bool
  streamContract : Option Json

/-- The result of a request, before it is printed as JSON. -/
inductive Reply where
  | initialized
  | success
  | run (run : RunRow)
  | runs (runs : List RunRow)
  | session (session : AcpSession)
  | queued (run : RunRow) (ingress : List (String × Json)) (ingressEventId : String)
  | woken (run : RunRow) (ingress : List (String × Json)) (runtime : AcpRuntimeResult)

structure JsonRpcResponse where
  id : Option Json
  result : Option Reply
  error : Option JsonRpcError

/-- The calls of a request that may fail outside the service. -/
inductive StoreCall where
  | createRun
  | markRunning
  | markFailed
  | markCompleted
  | getRun
  | listRuns
  | cancelRun
  | createSession
  | getSession
  | resumeSession
  | loadIdentity
  | appendEvent
  deriving DecidableEq, Repr

/-- What a request meets outside: fresh ids, the clock, calls that fail, and the dispatcher the
host may have installed, with what it answers this time. -/
structure Env where
  runUuid : String
  messageUuid : String
  sessionUuid : String
  eventId : String
  now : String
  fault : StoreCall → Option String
  runtimeDispatcher : Option (AcpRuntimeDispatchRequest → Except String AcpRuntimeResult)

/-- A call goes through unless it meets a fault. -/
def Env.attempt (env : Env) (call : StoreCall) (wrap : String → ε) (x : Except ε α) : Except ε α :=
  match env.fault call with
  | some message => .error (wrap message)
  | none => x

structure AcpStdioService where
  principalId : String
  /-- `base_dir` of the store, where the processes are kept too. -/
  baseDir : String

/-- `ProcessStore::ledger_path`. -/
def AcpStdioService.ledgerPath (service : AcpStdioService) (principal : String) : String :=
  Path.join (Path.join service.baseDir principal) "ledger.db"

/-- A signed event given to a ledger; what the ledger makes of it is its own. -/
structure LedgerAppend where
  ledgerPath : String
  keypair : Keypair
  namespaceKey : String
  eventType : String
  payload : List (String × Json)
  deriving DecidableEq

/-- What the service did, and with whose records. -/
inductive Effect where
  | createdRun (run : RunRow)
  | changedRun (run : RunRow)
  | returnedRun (run : RunRow)
  | createdSession (session : AcpSession)
  | changedSession (session : AcpSession)
  | returnedSession (session : AcpSession)
  | appended (event : LedgerAppend)
  deriving DecidableEq

def Reply.returned : Reply → List Effect
  | .initialized | .success => []
  | .run row | .queued row _ _ | .woken row _ _ => [.returnedRun row]
  | .runs rows => rows.map .returnedRun
  | .session row => [.returnedSession row]

/-! The store. -/

structure Stores where
  runs : List RunRow
  sessions : List AcpSession

abbrev RunRow.find (runId : String) (runs : List RunRow) : Option RunRow := Table.select (fun run => run.runId) runId runs

abbrev AcpSession.find (sessionId : String) (sessions : List AcpSession) : Option AcpSession :=
  Table.select AcpSession.sessionId sessionId sessions

/-- `create_with_run_id`. -/
def createWithRunId (env : Env) (runId task submitter : String) (runs : List RunRow) : Except A2AError RunRow :=
  env.attempt .createRun .protocol <| match RunRow.find runId runs with
    | some _ => .error (.protocol "UNIQUE constraint failed: runs.run_id")
    | none => .ok ⟨⟨runId, submitter, task, ⟨.queued, none, none⟩⟩, none, none, env.now, env.now⟩

/-- `get`; every failure is reported as an unknown run. -/
def getRun (env : Env) (runId : String) (runs : List RunRow) : Except A2AError RunRow :=
  env.attempt .getRun (fun _ => .agentNotFound runId) (required (RunRow.find runId runs) (.agentNotFound runId))

/-- `list`: a limit from 2^63 on is negative to SQL, which is no limit. -/
def listRuns (env : Env) (limit : Nat) (runs : List RunRow) : Except A2AError (List RunRow) :=
  let newest := (sortBy (fun run => run.createdAt) runs.reverse).reverse
  env.attempt .listRuns .protocol (.ok (if limit < 2 ^ 63 then newest.take limit else newest))

/-- `update_status`, on the rows. -/
def setStatus (env : Env) (runId : String) (outcome : Outcome) (runs : List RunRow) : List RunRow :=
  Table.modify (fun run => run.runId) runId (fun run => { run with outcome := outcome, updatedAt := env.now }) runs

/-- The run an update by id changes, if there is one. -/
def changed (runId : String) (runs : List RunRow) : List Effect := (RunRow.find runId runs).toList.map .changedRun

def createSession (env : Env) (submitter : String) (title parentSessionId forkedFromSessionId : Option String)
    (sessions : List AcpSession) : Except A2AError AcpSession :=
  let sessionId := "session-" ++ env.sessionUuid
  env.attempt .createSession .protocol <| match AcpSession.find sessionId sessions with
    | some _ => .error (.protocol "UNIQUE constraint failed: sessions.session_id")
    | none => .ok ⟨sessionId, submitter, title, "active", parentSessionId, forkedFromSessionId, 0, env.now, env.now⟩

def getSession (env : Env) (sessionId : String) (sessions : List AcpSession) : Except A2AError AcpSession :=
  env.attempt .getSession (fun _ => .agentNotFound sessionId)
    (required (AcpSession.find sessionId sessions) (.agentNotFound sessionId))

def resumed (env : Env) (session : AcpSession) : AcpSession :=
  { session with resumeCount := session.resumeCount + 1, status := "active", updatedAt := env.now }

/-! The handlers. Each gives its answer, the stores it leaves and what it did on the way. -/

structure Served where
  result : Except String Reply
  stores : Stores
  effects : List Effect

/-- A check before anything else is done. -/
def afterCheck (stores : Stores) (x : Except String α) (next : α → Served) : Served :=
  match x with
  | .ok a => next a
  | .error e => ⟨.error e, stores, []⟩

def textParam (params : Json) (key : String) : Option String := (params.get key).bind Json.asStr

section

variable (host : Host) (service : AcpStdioService) (identities : String → Option Keypair) (env : Env) (stores : Stores)

/-- The submitter a request names, or the service's own. -/
def submitterOf (params : Json) : String := (textParam params "submitter_principal").getD service.principalId

def sessionSubmitter (params : Json) (method : String) : Except String String := do
  let submitter := submitterOf service params
  ensure (isUnsafePrincipal submitter = false) (method ++ " requires a non-anonymous submitter_principal")
  ensure (submitter = service.principalId) (method ++ " submitter_principal must match the ACP service principal")
  .ok submitter

def ensureSessionOwner (params : Json) (session : AcpSession) (method : String) : Except String String := do
  let submitter ← sessionSubmitter service params method
  ensure (submitter = session.submitterPrincipal) (method ++ " submitter_principal must match the session owner")
  .ok submitter

/-- The session a request names, with its id and the submitter once both are checked. -/
def ownedSession (request : JsonRpcRequest) (method : String) : Except String (Json × AcpSession × String) := do
  let params ← required request.params "Missing params"
  let sessionId ← required (textParam params "session_id") "Missing session_id"
  let session ← (getSession env sessionId stores.sessions).mapError A2AError.text
  let submitter ← ensureSessionOwner service params session method
  .ok (params, session, submitter)

/-- A new row of `sessions`, and the answer with it. -/
def withNewSession (submitter : String) (title parentSessionId forkedFromSessionId : Option String) : Served :=
  afterCheck stores ((createSession env submitter title parentSessionId forkedFromSessionId stores.sessions).mapError A2AError.text)
    fun session => ⟨.ok (.session session), { stores with sessions := stores.sessions ++ [session] }, [.createdSession session]⟩

def handleNewSession (request : JsonRpcRequest) : Served :=
  afterCheck stores (do
    let params ← required request.params "Missing params"
    let submitter ← sessionSubmitter service params "new_session"
    .ok (params, submitter)) fun (params, submitter) =>
  withNewSession env stores submitter (textParam params "title") none none

def handleLoadSession (request : JsonRpcRequest) : Served :=
  afterCheck stores (ownedSession service env stores request "load_session") fun (_, session, _) =>
  ⟨.ok (.session session), stores, []⟩

def handleResumeSession (request : JsonRpcRequest) : Served :=
  afterCheck stores (ownedSession service env stores request "resume_session") fun (_, session, _) =>
  match env.fault .resumeSession with
  | some message => ⟨.error (A2AError.text (.protocol message)), stores, []⟩
  | none =>
    let sessions := Table.modify AcpSession.sessionId session.sessionId (resumed env) stores.sessions
    ⟨(getSession env session.sessionId sessions).mapError A2AError.text |>.map .session, { stores with sessions := sessions },
      [.changedSession session]⟩

def handleForkSession (request : JsonRpcRequest) : Served :=
  afterCheck stores (ownedSession service env stores request "fork_session") fun (params, parent, submitter) =>
  withNewSession env stores submitter (textParam params "title") (some parent.sessionId) (some parent.sessionId)

/-- The route a request asks for is the wake runtime. -/
def wakeRequested (params : Json) : Bool :=
  let route := (((params.get "runtime_route").or (params.get "route")).bind Json.asStr).map trim
  decide (toAsciiLowercase (route.getD "ingress") = "wake")

/-- A `runs/create` once its submitter is accepted and the submitter's key is loaded. -/
structure Prepared where
  task : String
  submitter : String
  runId : String
  wake : Bool
  envelope : CanonicalEnvelope
  keypair : Keypair

def runIdOf : String := "run-" ++ env.runUuid

/-- The envelope of a run before it is validated. -/
def envelopeOf (params : Json) (task : String) : CanonicalEnvelope :=
  .built host "acp-stdio" (submitterOf service params) "acp-stdio" (if wakeRequested params then runIdOf env else "acp-runs")
    ("acp-" ++ env.messageUuid) task none env.now

def prepare (request : JsonRpcRequest) : Except String Prepared := do
  let params ← required request.params "Missing params"
  let task ← required (textParam params "task") "Missing task"
  let submitter := submitterOf service params
  ensure (isUnsafePrincipal submitter = false) "runs/create requires a non-anonymous submitter_principal"
  let wake := wakeRequested params
  let envelope ← (CanonicalEnvelope.new host "acp-stdio" submitter "acp-stdio" (if wake then runIdOf env else "acp-runs")
    ("acp-" ++ env.messageUuid) task none env.now).mapError (fun e => "canonical envelope rejected: " ++ e.text)
  let envelope ← (envelope.ingest host).mapError (fun e => "canonical envelope rejected: " ++ e.text)
  let keypair ← env.attempt .loadIdentity ("submitter identity unavailable: " ++ ·)
    (required (identities submitter) ("submitter identity unavailable: process not found: " ++ submitter))
  .ok ⟨task, submitter, runIdOf env, wake, envelope, keypair⟩

def ingressScope (scope reason : String) : List (String × Json) :=
  [("runtime_scope", .str scope), ("runtime_scope_reason", .str reason)]

/-- `annotate_acp_turn_runtime_scope`. -/
def annotateAcpTurnRuntimeScope (payload : List (String × Json)) : List (String × Json) :=
  payload ++ ingressScope "turn_runtime" "ACP stdio requested wake dispatch and must return a turn proof chain"

/-- `annotate_acp_ingress_scope`. -/
def annotateAcpIngressScope (payload : List (String × Json)) : List (String × Json) :=
  payload ++ ingressScope "ingress_only" "ACP stdio queues a run; route through API /v1/runs for wake turn proofs"

/-- The run is marked as the dispatch went; the answer carries the row as it then is. -/
def finishRun (run : RunRow) (ingress : List (String × Json)) (runs : List RunRow) (soFar : List Effect) :
    Except String AcpRuntimeResult → Served
  | .error message =>
    match env.fault .markFailed with
    | some _ => ⟨.error ("ACP wake runtime failed: " ++ message), { stores with runs := runs }, soFar⟩
    | none => ⟨.error ("ACP wake runtime failed: " ++ message),
        { stores with runs := setStatus env run.runId ⟨.failed, none, some message⟩ runs }, soFar ++ changed run.runId runs⟩
  | .ok runtime =>
    match env.fault .markCompleted with
    | some e => ⟨.error ("failed to mark ACP run completed: " ++ A2AError.text (.protocol e)), { stores with runs := runs }, soFar⟩
    | none =>
      let completed := setStatus env run.runId ⟨.completed, some runtime.responseText, none⟩ runs
      let row := match getRun env run.runId completed with
        | .ok row => row
        | .error _ => run
      ⟨.ok (.woken row ingress runtime), { stores with runs := completed }, soFar ++ changed run.runId runs⟩

/-- The wake route: the run is written, marked running, dispatched and marked again. -/
def wakeRun (p : Prepared) : Served :=
  let ingress := annotateAcpTurnRuntimeScope p.envelope.toChannelReceivedPayload
  afterCheck stores (required env.runtimeDispatcher "ACP wake runtime requested but no runtime dispatcher is installed")
    fun dispatcher =>
  afterCheck stores ((createWithRunId env p.runId p.envelope.body p.submitter stores.runs).mapError A2AError.text) fun run =>
  let created := stores.runs ++ [run]
  match env.fault .markRunning with
  | some e => ⟨.error ("failed to mark ACP run running: " ++ A2AError.text (.protocol e)), { stores with runs := created },
      [.createdRun run]⟩
  | none => finishRun env stores run ingress (setStatus env run.runId ⟨.running, none, none⟩ created)
      (.createdRun run :: changed run.runId created)
      (dispatcher ⟨run.runId, p.envelope.body, p.submitter, p.envelope⟩)

/-- The ingress route: the event is appended first, then the run is written. -/
def queueRun (p : Prepared) : Served :=
  let ingress := annotateAcpIngressScope p.envelope.toChannelReceivedPayload
  match env.fault .appendEvent with
  | some e => ⟨.error ("failed to append ACP ingress ledger event: " ++ e), stores, []⟩
  | none =>
    let event := ⟨service.ledgerPath p.submitter, p.keypair, p.submitter, "channel.received", ingress⟩
    match createWithRunId env p.runId p.envelope.body p.submitter stores.runs with
    | .error e => ⟨.error e.text, stores, [.appended event]⟩
    | .ok run => ⟨.ok (.queued run ingress env.eventId), { stores with runs := stores.runs ++ [run] },
        [.appended event, .createdRun run]⟩

def handleCreateRun (request : JsonRpcRequest) : Served :=
  afterCheck stores (prepare host service identities env request) fun p =>
  if p.wake then wakeRun env stores p else queueRun service env stores p

def runIdParam (request : JsonRpcRequest) : Except String String := do
  let params ← required request.params "Missing params"
  required (textParam params "run_id") "Missing run_id"

def handleGetRun (request : JsonRpcRequest) : Served :=
  afterCheck stores (runIdParam request) fun runId =>
  ⟨(getRun env runId stores.runs).mapError A2AError.text |>.map .run, stores, []⟩

def limitOf (request : JsonRpcRequest) : Nat := ((request.params.bind (Json.get "limit")).bind Json.asU64).getD 10

def handleListRuns (request : JsonRpcRequest) : Served :=
  ⟨(listRuns env (limitOf request) stores.runs).mapError A2AError.text |>.map .runs, stores, []⟩

/-- The number of rows that change is not looked at, nor whose they are. -/
def handleCancelRun (request : JsonRpcRequest) : Served :=
  afterCheck stores (runIdParam request) fun runId =>
  match env.fault .cancelRun with
  | some e => ⟨.error (A2AError.text (.protocol e)), stores, []⟩
  | none => ⟨.ok .success, { stores with runs := setStatus env runId ⟨.cancelled, none, some "cancelled by request"⟩ stores.runs },
      changed runId stores.runs⟩

def serve (request : JsonRpcRequest) : Served :=
  match request.method with
  | "initialize" => ⟨.ok .initialized, stores, []⟩
  | "runs/create" => handleCreateRun host service identities env stores request
  | "runs/get" => handleGetRun env stores request
  | "runs/list" => handleListRuns env stores request
  | "runs/cancel" => handleCancelRun env stores request
  | "new_session" => handleNewSession service env stores request
  | "load_session" => handleLoadSession service env stores request
  | "resume_session" => handleResumeSession service env stores request
  | "fork_session" => handleForkSession service env stores request
  | method => ⟨.error ("Method not found: " ++ method), stores, []⟩

/-- `handle_request`: the answer sent for what was served. -/
def respond (request : JsonRpcRequest) (served : Served) : JsonRpcResponse :=
  match served.result with
  | .ok reply => ⟨request.id, some reply, none⟩
  | .error message => ⟨request.id, none, some ⟨-32603, message⟩⟩

end

/-! On the columns that decide the life of a run these are the operations of the run store. -/

theorem find_toAcpRun (runId : String) (runs : List RunRow) :
    (RunRow.find runId runs).map RunRow.toAcpRun = Store.row (runs.map RunRow.toAcpRun) runId := by
  unfold Store.row RunRow.find Table.select
  rw [List.find?_map]
  rfl

theorem createWithRunId_toAcpRun {env : Env} (sound : env.fault .createRun = none) (runId task submitter : String)
    (runs : List RunRow) :
    (createWithRunId env runId task submitter runs).map (fun run => (runs ++ [run]).map RunRow.toAcpRun) =
      Store.createWithRunId (runs.map RunRow.toAcpRun) runId task submitter := by
  rw [Store.createWithRunId,← find_toAcpRun,createWithRunId,Env.attempt,sound]
  cases RunRow.find runId runs with
  | some run => rfl
  | none => simp [Except.map]

theorem setStatus_toAcpRun (env : Env) (runId : String) (outcome : Outcome) (runs : List RunRow) :
    .ok ((setStatus env runId outcome runs).map RunRow.toAcpRun) =
      Store.updateStatus (runs.map RunRow.toAcpRun) runId outcome := by
  rw [Store.updateStatus,setStatus,Table.modify,Table.modify,List.map_map,List.map_map]
  congr 2
  funext run
  simp only [Function.comp]
  split <;> rfl

end Stdio

end Zaion.Acp
