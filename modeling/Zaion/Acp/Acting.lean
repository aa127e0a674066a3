import Zaion.Acp.Stdio
import Zaion.Sample

/-! Whose principal the protocol service acts for. The session methods compare the submitter with
the service's principal and with the owner of the session; of the methods for runs none does. -/
namespace Zaion.Acp.Stdio

open Lib Session Turn

/-- The record is the service's principal's; an event is signed with its key and goes to its ledger. -/
def Effect.Belongs (service : AcpStdioService) (identities : String → Option Keypair) : Effect → Prop
  | .createdRun run | .changedRun run | .returnedRun run => run.submitterPrincipal = service.principalId
  | .createdSession session | .changedSession session | .returnedSession session =>
    session.submitterPrincipal = service.principalId
  | .appended event => identities service.principalId = some event.keypair ∧
      event.ledgerPath = service.ledgerPath service.principalId ∧ event.namespaceKey = service.principalId

def JsonRpcResponse.returned (response : JsonRpcResponse) : List Effect := response.result.elim [] Reply.returned

/-- The store, the keys of the local processes, and all the service did and returned so far. -/
structure World where
  identities : String → Option Keypair
  stores : Stores
  done : List Effect

inductive Act where
  | request (request : JsonRpcRequest) (env : Env)
  /-- Other processes write the store between two requests. -/
  | elsewhere (stores : Stores)
  /-- A process is created; one that exists keeps its key. -/
  | onboard (principal : String) (keypair : Keypair)

def added (identities : String → Option Keypair) (principal : String) (keypair : Keypair) (name : String) : Option Keypair :=
  if name = principal then (identities name).or (some keypair) else identities name

def step (host : Host) (service : AcpStdioService) (w : World) : Act → Option World
  | .request request env =>
    let served := serve host service w.identities env w.stores request
    some { w with
      stores := served.stores
      done := w.done ++ served.effects ++ (respond request served).returned }
  | .elsewhere stores => some { w with stores := stores }
  | .onboard principal keypair => some { w with identities := added w.identities principal keypair }

/-- All that was done belongs to the service's principal. -/
def World.Owned (service : AcpStdioService) (w : World) : Prop := ∀ e ∈ w.done, e.Belongs service w.identities

/-- A `runs/create` gets as far as its first write: its envelope is valid, the identity store has
the submitter's key, and the write goes through. -/
structure Reaches (host : Host) (service : AcpStdioService) (w : World) (env : Env) (params : Json) : Prop where
  asked : ∃ task, textParam params "task" = some task ∧ (envelopeOf host service env params task).validate host = .ok ()
  known : env.fault .loadIdentity = none ∧ w.identities (submitterOf service params) ≠ none
  written : if wakeRequested params then
      env.runtimeDispatcher ≠ none ∧ env.fault .createRun = none ∧ RunRow.find (runIdOf env) w.stores.runs = none
    else env.fault .appendEvent = none

/-- A `runs/create` that gets to write names no principal but the service's, and the runs that are
returned or cancelled are that principal's. -/
@[mk_iff]
structure RequestWithin (host : Host) (service : AcpStdioService) (w : World) (env : Env) (request : JsonRpcRequest) : Prop where
  create : request.method = "runs/create" → ∀ params, request.params = some params →
    Reaches host service w env params → submitterOf service params = service.principalId
  get : request.method = "runs/get" → ∀ runId, runIdParam request = .ok runId →
    ∀ run, getRun env runId w.stores.runs = .ok run → run.submitterPrincipal = service.principalId
  list : request.method = "runs/list" → ∀ runs, listRuns env (limitOf request) w.stores.runs = .ok runs →
    ∀ run ∈ runs, run.submitterPrincipal = service.principalId
  cancel : request.method = "runs/cancel" → ∀ runId, runIdParam request = .ok runId → env.fault .cancelRun = none →
    ∀ run, RunRow.find runId w.stores.runs = some run → run.submitterPrincipal = service.principalId

def Within (host : Host) (service : AcpStdioService) (w : World) : Act → Prop
  | .request request env => RequestWithin host service w env request
  | .elsewhere _ | .onboard _ _ => True

/-! What each handler does. -/

section

variable {host : Host} {service : AcpStdioService} {identities : String → Option Keypair} {env : Env} {stores : Stores}
  {request : JsonRpcRequest} {params : Json}

def Served.returned (served : Served) : List Effect :=
  match served.result with
  | .ok reply => reply.returned
  | .error _ => []

def Served.Own (service : AcpStdioService) (identities : String → Option Keypair) (served : Served) : Prop :=
  (∀ e ∈ served.effects, e.Belongs service identities) ∧ ∀ e ∈ served.returned, e.Belongs service identities

theorem respond_returned (request : JsonRpcRequest) (served : Served) : (respond request served).returned = served.returned := by
  rw [respond,Served.returned]
  cases served.result <;> rfl

theorem attempt_ok_iff {call : StoreCall} {wrap : String → ε} {x : Except ε α} {a : α} :
    env.attempt call wrap x = .ok a ↔ env.fault call = none ∧ x = .ok a := by
  rw [Env.attempt]
  cases env.fault call <;> simp

theorem own_afterCheck_iff {x : Except String α} {next : α → Served} :
    (afterCheck stores x next).Own service identities ↔ ∀ a, x = .ok a → (next a).Own service identities := by
  cases x <;> simp [afterCheck,Served.Own,Served.returned]

/-! Sessions. -/

theorem sessionSubmitter_ok {method submitter : String} (checked : sessionSubmitter service params method = .ok submitter) :
    submitter = service.principalId := by
  simp only [sessionSubmitter,check_bind_ok_iff,ensure_ok_iff,Except.ok.injEq] at checked
  obtain ⟨_, own, rfl⟩ := checked
  exact own

theorem getSession_ok_iff {sessionId : String} {sessions : List AcpSession} {session : AcpSession} :
    getSession env sessionId sessions = .ok session ↔
      env.fault .getSession = none ∧ AcpSession.find sessionId sessions = some session := by
  rw [getSession,attempt_ok_iff,required_ok_iff]

theorem find_resumed (sessionId : String) (sessions : List AcpSession) :
    AcpSession.find sessionId (Table.modify AcpSession.sessionId sessionId (resumed env) sessions) =
      (AcpSession.find sessionId sessions).map (resumed env) :=
  Table.select_modify_self fun _ same => same

theorem ownedSession_ok {method submitter : String} {session : AcpSession}
    (checked : ownedSession service env stores request method = .ok (params, session, submitter)) :
    submitter = service.principalId ∧ session.submitterPrincipal = service.principalId ∧
      AcpSession.find session.sessionId stores.sessions = some session := by
  simp only [ownedSession,bind_ok_iff,required_ok_iff,mapError_ok_iff,getSession_ok_iff,Except.ok.injEq] at checked
  obtain ⟨params', _, sessionId, _, session', ⟨_, found⟩, submitter', owner, same⟩ := checked
  cases same
  simp only [ensureSessionOwner,bind_ok_iff,ensure_ok_iff,Except.ok.injEq] at owner
  obtain ⟨_, mine, _, owns, rfl⟩ := owner
  have own := sessionSubmitter_ok mine
  refine ⟨own, owns.symm.trans own, ?_⟩
  rw [Table.key_of_select found]
  exact found

theorem own_withNewSession {submitter : String} (own : submitter = service.principalId)
    (title parentSessionId forkedFromSessionId : Option String) :
    (withNewSession env stores submitter title parentSessionId forkedFromSessionId).Own service identities := by
  refine own_afterCheck_iff.mpr fun session created => ?_
  rw [mapError_ok_iff,createSession,attempt_ok_iff] at created
  obtain ⟨_, created⟩ := created
  split at created
  · cases created
  · cases created
    simp [Served.Own,Served.returned,Reply.returned,Effect.Belongs,own]

theorem own_newSession : (handleNewSession service env stores request).Own service identities := by
  refine own_afterCheck_iff.mpr fun (params, submitter) checked => ?_
  simp only [bind_ok_iff,Except.ok.injEq,Prod.mk.injEq] at checked
  obtain ⟨_, _, _, mine, _, rfl⟩ := checked
  exact own_withNewSession (sessionSubmitter_ok mine) ..

theorem own_loadSession : (handleLoadSession service env stores request).Own service identities := by
  refine own_afterCheck_iff.mpr fun (_, session, _) checked => ?_
  simp [Served.Own,Served.returned,Reply.returned,Effect.Belongs,(ownedSession_ok checked).2.1]

theorem own_resumeSession : (handleResumeSession service env stores request).Own service identities := by
  refine own_afterCheck_iff.mpr fun (_, session, _) checked => ?_
  obtain ⟨_, own, found⟩ := ownedSession_ok checked
  dsimp only
  split
  · simp [Served.Own,Served.returned]
  · refine ⟨by simp [Effect.Belongs,own], ?_⟩
    have after : AcpSession.find session.sessionId
        (Table.modify AcpSession.sessionId session.sessionId (resumed env) stores.sessions) = some (resumed env session) := by
      rw [find_resumed,found]
      rfl
    rw [getSession,after]
    cases faulty : env.fault .getSession <;>
      simp [Env.attempt,faulty,required,Except.mapError,Except.map,Served.returned,Reply.returned,Effect.Belongs,resumed,own]

theorem own_forkSession : (handleForkSession service env stores request).Own service identities := by
  refine own_afterCheck_iff.mpr fun (_, parent, submitter) checked => ?_
  exact own_withNewSession (ownedSession_ok checked).1 ..

/-! Runs. -/

/-- The run with the id, if there is one, was submitted by the principal. -/
def RunOf (principal runId : String) (runs : List RunRow) : Prop :=
  ∀ run, RunRow.find runId runs = some run → run.submitterPrincipal = principal

theorem find_setStatus (runId : String) (outcome : Outcome) (runs : List RunRow) :
    RunRow.find runId (setStatus env runId outcome runs) =
      (RunRow.find runId runs).map (fun run => { run with outcome := outcome, updatedAt := env.now }) :=
  Table.select_modify_self fun _ same => same

theorem RunOf.setStatus {principal runId : String} {runs : List RunRow} (owned : RunOf principal runId runs) (outcome : Outcome) :
    RunOf principal runId (Stdio.setStatus env runId outcome runs) := by
  intro run found
  rw [find_setStatus] at found
  obtain ⟨before, there, rfl⟩ := Option.map_eq_some_iff.mp found
  exact owned before there

theorem RunOf.changed {runId : String} {runs : List RunRow} (owned : RunOf service.principalId runId runs) :
    ∀ e ∈ changed runId runs, e.Belongs service identities := by
  simp only [Stdio.changed,List.mem_map,Option.mem_toList]
  rintro _ ⟨run, found, rfl⟩
  exact owned run found

theorem getRun_ok_iff {runId : String} {runs : List RunRow} {run : RunRow} :
    getRun env runId runs = .ok run ↔ env.fault .getRun = none ∧ RunRow.find runId runs = some run := by
  rw [getRun,attempt_ok_iff,required_ok_iff]

theorem createWithRunId_ok {runId task submitter : String} {runs : List RunRow} {run : RunRow}
    (created : createWithRunId env runId task submitter runs = .ok run) :
    RunRow.find runId runs = none ∧ run.runId = runId ∧ run.submitterPrincipal = submitter := by
  rw [createWithRunId,attempt_ok_iff] at created
  obtain ⟨_, created⟩ := created
  split at created
  · cases created
  · cases created
    exact ⟨‹_›, rfl, rfl⟩

theorem createWithRunId_of {runId : String} {runs : List RunRow} (sound : env.fault .createRun = none)
    (fresh : RunRow.find runId runs = none) (task submitter : String) :
    ∃ run, createWithRunId env runId task submitter runs = .ok run ∧ run.submitterPrincipal = submitter := by
  simp [createWithRunId,Env.attempt,sound,fresh]

/-- The row just written is found under its id. -/
theorem find_created {run : RunRow} {runs : List RunRow} (fresh : RunRow.find run.runId runs = none) :
    RunRow.find run.runId (runs ++ [run]) = some run :=
  Table.select_append_new (Table.select_none_iff.mp fresh)

theorem mem_finishRun {run : RunRow} {ingress : List (String × Json)} {runs : List RunRow} {soFar : List Effect}
    {answer : Except String AcpRuntimeResult} {e : Effect} (member : e ∈ soFar) :
    e ∈ (finishRun env stores run ingress runs soFar answer).effects := by
  cases answer <;> rw [finishRun] <;> split <;> simp [member]

theorem own_finishRun {run : RunRow} {ingress : List (String × Json)} {runs : List RunRow} {soFar : List Effect}
    (own : run.submitterPrincipal = service.principalId) (owned : RunOf service.principalId run.runId runs)
    (before : ∀ e ∈ soFar, e.Belongs service identities) (answer : Except String AcpRuntimeResult) :
    (finishRun env stores run ingress runs soFar answer).Own service identities := by
  have both : ∀ e ∈ soFar ++ changed run.runId runs, e.Belongs service identities := by
    intro e member
    exact (List.mem_append.mp member).elim (before e) (owned.changed e)
  cases answer with
  | error message =>
    rw [finishRun]
    split
    · exact ⟨before, by simp [Served.returned]⟩
    · exact ⟨both, by simp [Served.returned]⟩
  | ok runtime =>
    rw [finishRun]
    split
    · exact ⟨before, by simp [Served.returned]⟩
    · refine ⟨both, ?_⟩
      simp only [Served.returned,Reply.returned,List.mem_singleton,forall_eq]
      -- the row as it is read back, or the row as it was written
      split
      · rename_i row found
        exact (owned.setStatus _) row (getRun_ok_iff.mp found).2
      · exact own

theorem own_wakeRun_iff {p : Prepared} : (wakeRun env stores p).Own service identities ↔
    (env.runtimeDispatcher ≠ none ∧ env.fault .createRun = none ∧ RunRow.find p.runId stores.runs = none →
      p.submitter = service.principalId) := by
  rw [wakeRun,own_afterCheck_iff]
  constructor
  · rintro own ⟨installed, sound, fresh⟩
    obtain ⟨dispatcher, found⟩ := Option.ne_none_iff_exists'.mp installed
    obtain ⟨run, created, submitter⟩ := createWithRunId_of sound fresh p.envelope.body p.submitter
    have own := own_afterCheck_iff.mp (own dispatcher (required_ok_iff.mpr found)) run (mapError_ok_iff.mpr created)
    have made : Effect.Belongs service identities (.createdRun run) := by
      refine own.1 _ ?_
      dsimp only
      split
      · exact List.mem_singleton_self _
      · exact mem_finishRun List.mem_cons_self
    exact submitter.symm.trans made
  · intro own dispatcher found
    refine own_afterCheck_iff.mpr fun run created => ?_
    rw [mapError_ok_iff] at created
    obtain ⟨fresh, runId, submitter⟩ := createWithRunId_ok created
    have sound : env.fault .createRun = none := (attempt_ok_iff.mp created).1
    have mine : run.submitterPrincipal = service.principalId :=
      submitter.trans (own ⟨by rw [required_ok_iff.mp found]; simp, sound, fresh⟩)
    have owned : RunOf service.principalId run.runId (stores.runs ++ [run]) := by
      intro row there
      rw [find_created (runId ▸ fresh)] at there
      cases there
      exact mine
    dsimp only
    split
    · exact ⟨by simp [Effect.Belongs,mine], by simp [Served.returned]⟩
    · refine own_finishRun mine (owned.setStatus _) ?_ _
      intro e member
      rcases List.mem_cons.mp member with rfl | member
      · exact mine
      · exact owned.changed e member

theorem own_queueRun_iff {p : Prepared} (held : identities p.submitter = some p.keypair) :
    (queueRun service env stores p).Own service identities ↔
      (env.fault .appendEvent = none → p.submitter = service.principalId) := by
  rw [queueRun]
  cases faulty : env.fault .appendEvent with
  | some message => simp [Served.Own,Served.returned]
  | none =>
    constructor
    · intro own _
      dsimp only at own
      have appended : Effect.Belongs service identities
          (.appended ⟨service.ledgerPath p.submitter, p.keypair, p.submitter, "channel.received",
            annotateAcpIngressScope p.envelope.toChannelReceivedPayload⟩) := by
        refine own.1 _ ?_
        split <;> simp
      exact appended.2.2
    · intro own
      have mine := own rfl
      dsimp only
      split
      · simp [Served.Own,Served.returned,Effect.Belongs,← mine,held]
      · rename_i run created
        obtain ⟨_, _, submitter⟩ := createWithRunId_ok created
        simp [Served.Own,Served.returned,Reply.returned,Effect.Belongs,← mine,held,submitter]

theorem prepare_ok_iff {p : Prepared} : prepare host service identities env request = .ok p ↔
    ∃ params task keypair, request.params = some params ∧ textParam params "task" = some task ∧
      (envelopeOf host service env params task).validate host = .ok () ∧ env.fault .loadIdentity = none ∧
      identities (submitterOf service params) = some keypair ∧
      p = ⟨task, submitterOf service params, runIdOf env, wakeRequested params, envelopeOf host service env params task, keypair⟩ := by
  simp only [prepare,bind_ok_iff,required_ok_iff,mapError_ok_iff,attempt_ok_iff,ensure_ok_iff,Except.ok.injEq]
  constructor
  · rintro ⟨params, given, task, asked, _, _, envelope, built, ingested, again, keypair, ⟨sound, held⟩, rfl⟩
    obtain ⟨rfl, valid⟩ := CanonicalEnvelope.new_ok_iff.mp built
    rw [CanonicalEnvelope.ingest_of_valid valid] at again
    cases again
    exact ⟨params, task, keypair, given, asked, valid, sound, held, rfl⟩
  · rintro ⟨params, task, keypair, given, asked, valid, sound, held, rfl⟩
    have safe := (CanonicalEnvelope.validate_ok_iff.mp valid).2.2.1
    exact ⟨params, given, task, asked, (), safe, _, CanonicalEnvelope.new_ok_iff.mpr ⟨rfl, valid⟩, _,
      CanonicalEnvelope.ingest_of_valid valid, keypair, ⟨sound, held⟩, rfl⟩

theorem own_createRun_iff {w : World} : (handleCreateRun host service w.identities env w.stores request).Own service w.identities ↔
    ∀ params, request.params = some params → Reaches host service w env params →
      submitterOf service params = service.principalId := by
  rw [handleCreateRun,own_afterCheck_iff]
  constructor
  · rintro own params given ⟨⟨task, asked, valid⟩, ⟨sound, known⟩, written⟩
    obtain ⟨keypair, held⟩ := Option.ne_none_iff_exists'.mp known
    have own := own _ (prepare_ok_iff.mpr ⟨params, task, keypair, given, asked, valid, sound, held, rfl⟩)
    dsimp only at own
    split at own
    · rename_i wake
      rw [if_pos wake] at written
      exact own_wakeRun_iff.mp own written
    · rename_i wake
      rw [if_neg wake] at written
      exact (own_queueRun_iff held).mp own written
  · intro within p prepared
    obtain ⟨params, task, keypair, given, asked, valid, sound, held, rfl⟩ := prepare_ok_iff.mp prepared
    have reaches := within params given
    have known : w.identities (submitterOf service params) ≠ none := by simp [held]
    dsimp only
    split
    · rename_i wake
      exact own_wakeRun_iff.mpr fun written => reaches ⟨⟨task, asked, valid⟩, ⟨sound, known⟩, by rwa [if_pos wake]⟩
    · rename_i wake
      exact (own_queueRun_iff held).mpr fun written => reaches ⟨⟨task, asked, valid⟩, ⟨sound, known⟩, by rwa [if_neg wake]⟩

theorem own_getRun_iff : (handleGetRun env stores request).Own service identities ↔
    ∀ runId, runIdParam request = .ok runId →
      ∀ run, getRun env runId stores.runs = .ok run → run.submitterPrincipal = service.principalId := by
  rw [handleGetRun,own_afterCheck_iff]
  refine forall_congr' fun runId => imp_congr_right fun _ => ?_
  cases getRun env runId stores.runs <;>
    simp [Served.Own,Served.returned,Except.mapError,Except.map,Reply.returned,Effect.Belongs]

theorem own_listRuns_iff : (handleListRuns env stores request).Own service identities ↔
    ∀ runs, listRuns env (limitOf request) stores.runs = .ok runs →
      ∀ run ∈ runs, run.submitterPrincipal = service.principalId := by
  rw [handleListRuns]
  cases listRuns env (limitOf request) stores.runs <;>
    simp [Served.Own,Served.returned,Except.mapError,Except.map,Reply.returned,Effect.Belongs]

theorem own_cancelRun_iff : (handleCancelRun env stores request).Own service identities ↔
    ∀ runId, runIdParam request = .ok runId → env.fault .cancelRun = none →
      ∀ run, RunRow.find runId stores.runs = some run → run.submitterPrincipal = service.principalId := by
  rw [handleCancelRun,own_afterCheck_iff]
  refine forall_congr' fun runId => imp_congr_right fun _ => ?_
  cases env.fault .cancelRun <;> simp [Served.Own,Served.returned,Reply.returned,changed,Effect.Belongs]

/-- A request stays with the principal exactly when it is within its bounds; only four methods have any. -/
theorem own_serve_iff {w : World} : (serve host service w.identities env w.stores request).Own service w.identities ↔
    RequestWithin host service w env request := by
  rw [requestWithin_iff,serve]
  split <;> rename_i method
  · simp [method,Served.Own,Served.returned,Reply.returned]
  · simp [method,own_createRun_iff]
  · simp [method,own_getRun_iff]
  · simp [method,own_listRuns_iff]
  · simp [method,own_cancelRun_iff]
  · simp [method,own_newSession]
  · simp [method,own_loadSession]
  · simp [method,own_resumeSession]
  · simp [method,own_forkSession]
  · rename_i create get list cancel _ _ _
    refine iff_of_true (by simp [Served.Own,Served.returned]) ⟨?_, ?_, ?_, ?_⟩
    · exact fun named => (create named).elim
    · exact fun named => (get named).elim
    · exact fun named => (list named).elim
    · exact fun named => (cancel named).elim

end

section

variable {host : Host} {service : AcpStdioService} {w next : World} {act : Act}

theorem added_eq {identities : String → Option Keypair} {name : String} {held : Keypair} (known : identities name = some held)
    (principal : String) (keypair : Keypair) : added identities principal keypair name = some held := by
  rw [added,known]
  split <;> rfl

/-- What belongs to the principal still does once more processes exist. -/
theorem Effect.Belongs.added {identities : String → Option Keypair} {e : Effect} (belongs : e.Belongs service identities)
    (principal : String) (keypair : Keypair) : e.Belongs service (Stdio.added identities principal keypair) := by
  cases e with
  | appended event => exact ⟨added_eq belongs.1 principal keypair, belongs.2⟩
  | _ => exact belongs

theorem step_owned_iff (owned : w.Owned service) (taken : step host service w act = some next) :
    next.Owned service ↔ Within host service w act := by
  cases act with
  | request request env =>
    cases taken
    rw [Within,← own_serve_iff,World.Owned]
    simp only [List.mem_append,respond_returned,Served.Own]
    constructor
    · intro all
      exact ⟨fun e member => all e (.inl (.inr member)), fun e member => all e (.inr member)⟩
    · rintro ⟨effects, returned⟩ e ((before | member) | member)
      · exact owned e before
      · exact effects e member
      · exact returned e member
  | elsewhere stores =>
    cases taken
    exact iff_of_true owned trivial
  | onboard principal keypair =>
    cases taken
    exact iff_of_true (fun e member => (owned e member).added principal keypair) trivial

theorem steps_total (host : Host) (service : AcpStdioService) (w : World) (acts : List Act) :
    ∃ t, steps (step host service) w acts = some t := by
  induction acts generalizing w with
  | nil => exact ⟨w, rfl⟩
  | cons act rest ih =>
    obtain ⟨next, taken⟩ : ∃ next, step host service w act = some next := by
      cases act <;> exact ⟨_, rfl⟩
    rw [steps,taken]
    exact ih next

/-- Over any requests, from any store and any keys: all the service creates, signs, returns and
changes is its principal's, in every state reached, exactly when every request is within its bounds. -/
theorem acts_as_principal_iff (host : Host) (service : AcpStdioService) (identities : String → Option Keypair)
    (stores : Stores) (acts : List Act) :
    (∀ w, Visits (step host service) ⟨identities, stores, []⟩ acts w → w.Owned service) ↔
      Meets (step host service) ⟨identities, stores, []⟩ (Within host service) acts := by
  obtain ⟨t, run⟩ := steps_total host service ⟨identities, stores, []⟩ acts
  have first : World.Owned service ⟨identities, stores, []⟩ := by simp [World.Owned]
  have exact_ (s : World) (act : Act) (next : World) (_ : True) (owned : s.Owned service)
      (taken : step host service s act = some next) : next.Owned service ↔ Within host service s act :=
    step_owned_iff owned taken
  exact visits_good_iff run trivial first (fun _ _ _ _ _ => trivial) exact_

end

/-! A client of one principal's service names another that has a process on the machine. -/

def aliceService : AcpStdioService := ⟨"zaion1alice", "/data"⟩

def localKeys (name : String) : Option Keypair :=
  if name = "zaion1alice" then some ⟨[1], [2]⟩ else if name = "zaion1bob" then some ⟨[3], [4]⟩ else none

def quietEnv : Env := ⟨"1", "2", "3", "e-1", "2026-01-01T00:00:00+00:00", fun _ => none, none⟩

def asBob : Json := .obj [("task", .str "pay"), ("submitter_principal", .str "zaion1bob")]

def createAsBob : JsonRpcRequest := ⟨none, "runs/create", some asBob⟩

def start : World := ⟨localKeys, ⟨[], []⟩, []⟩

theorem asBob_reaches : Reaches sha256Host aliceService start quietEnv asBob where
  asked := ⟨"pay", by decide, CanonicalEnvelope.built_valid sha256Host_digestIsHex (by decide) (by decide) (by decide)
    (by decide) (by decide) (by decide) (by decide)⟩
  known := ⟨rfl, by decide⟩
  written := by decide

/-- The service of one principal writes a run of another, and signs with its key. -/
theorem signs_for_another :
    ¬ ∀ w, Visits (step sha256Host aliceService) start [.request createAsBob quietEnv] w → w.Owned aliceService := by
  intro all
  obtain ⟨next, taken⟩ : ∃ next, step sha256Host aliceService start (.request createAsBob quietEnv) = some next := ⟨_, rfl⟩
  have run : steps (step sha256Host aliceService) start [.request createAsBob quietEnv] = some next := by
    rw [steps,taken]
    rfl
  have clean : start.Owned aliceService := by simp [World.Owned,start]
  have within := (step_owned_iff clean taken).mp (all next (visits_last run))
  exact absurd (within.create rfl asBob rfl asBob_reaches) (by decide)

end Zaion.Acp.Stdio
