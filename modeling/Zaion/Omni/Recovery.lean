import Zaion.Omni.Mirror

/-! From a run of `route_envelope` calls to its log, and from the log in any order back to the
session graph. -/
namespace Zaion.Omni

open Lib Ledger OmniSessionManager

/-- The authority returned for an envelope once the principal's session is `session`. -/
def authorityOf (host : Host) (envelope : CanonicalEnvelope) (session : OmniSession) : OmniRouteAuthority where
  authority := "OmniSessionManager"
  authoritySchema := "zaion.omni_session_authority.v1"
  sessionId := envelope.sessionId
  omniSessionId := session.sessionId
  principalId := envelope.principal
  channelType := (ChannelType.fromIngress envelope.source envelope.channel).asStr
  channelId := envelope.channel
  threadId := envelope.thread
  messageId := envelope.messageId
  envelopeId := envelope.envelopeId
  sourceHash := envelope.sourceHash
  route := "CanonicalEnvelope -> OmniSessionManager -> principal session graph"
  channelAttached := session.attachments.any (fun a =>
    decide (a.channelType = .fromIngress envelope.source envelope.channel) && decide (a.channelId = envelope.channel))
  messageCount := session.messages.length
  attachmentCount := session.attachments.length
  sessionGraphHash := sessionGraphHash host session

/-- Text at a field of a payload. -/
def textOf (payload : Json) (key : String) : Option String := (payload.get key).bind Json.asStr

/-- What a logged event tells replay. -/
def heardIn (event : LedgerEvent) : Heard where
  principal := (textOf event.payload "principal_id").getD ""
  channel :=
    let channelId := (textOf event.payload "channel_id").getD ""
    ⟨.fromAuthorityValue ((textOf event.payload "channel_type").getD "") channelId, channelId⟩
  messageId := (textOf event.payload "message_id").getD ""
  createdAt := event.createdAt

/-- The ids replay reads are not blank. -/
structure RouteCall.Named (call : RouteCall) : Prop where
  principal : trim call.envelope.principal ≠ ""
  session : trim call.draw.sessionId ≠ ""
  channel : trim call.envelope.channel ≠ ""
  thread : trim call.envelope.thread ≠ ""
  message : trim call.envelope.messageId ≠ ""
  source : trim call.envelope.sourceHash ≠ ""

section

variable {host : Host} {manager : OmniSessionManager} {call : RouteCall} {session : OmniSession} {event : LedgerEvent}

theorem asStr_lower (channelType : ChannelType) : toAsciiLowercase (trim channelType.asStr) = channelType.asStr := by
  cases channelType <;> decide

/-- The name of a channel type is read back as the type. -/
theorem fromAuthorityValue_asStr (channelType : ChannelType) (channelId : String) :
    ChannelType.fromAuthorityValue channelType.asStr channelId = channelType := by
  simp only [ChannelType.fromAuthorityValue,asStr_lower]
  cases channelType <;> rfl

theorem routeEnvelope_eq (host : Host) (manager : OmniSessionManager) (call : RouteCall) :
    ∃ session, session = ((manager.sessionOrNew call.draw call.envelope.principal).attachChannel
        ⟨call.heard.channel.channelType, call.heard.channel.channelId, call.draw.now, call.draw.now⟩).addMessage
          (routedMessage host call.draw call.envelope) call.draw.now ∧
      manager.routeEnvelope host call.draw call.envelope = ({ manager with
        sessions := manager.sessions.insert call.heard.principal session
        channelMap := manager.channelMap.insert call.heard.channel call.heard.principal },
        .ok (authorityOf host call.envelope session)) := by
  refine ⟨_, rfl, ?_⟩
  unfold OmniSessionManager.routeEnvelope OmniSessionManager.routeMessage
  simp only [AList.lookup_insert,RouteCall.heard,authorityOf]

/-- The event of a call whose session then is `session`. -/
def loggedWith (host : Host) (call : RouteCall) (session : OmniSession) : LedgerEvent :=
  call.logged host (authorityOf host call.envelope session)

theorem routeLogged_eq (host : Host) (manager : OmniSessionManager) (log : List LedgerEvent) (call : RouteCall) :
    ∃ session, session = ((manager.sessionOrNew call.draw call.envelope.principal).attachChannel
        ⟨call.heard.channel.channelType, call.heard.channel.channelId, call.draw.now, call.draw.now⟩).addMessage
          (routedMessage host call.draw call.envelope) call.draw.now ∧
      routeLogged host (manager, log) call = ({ manager with
        sessions := manager.sessions.insert call.heard.principal session
        channelMap := manager.channelMap.insert call.heard.channel call.heard.principal },
        log ++ [loggedWith host call session]) := by
  obtain ⟨session, made, routed⟩ := routeEnvelope_eq host manager call
  exact ⟨session, made, by rw [routeLogged,routed,loggedWith]⟩

/-- The fields of a logged payload that replay reads or that are compared with it. -/
structure Reports (host : Host) (a : OmniRouteAuthority) (payload : Json) : Prop where
  authority : textOf payload "authority" = some a.authority
  authoritySchema : textOf payload "authority_schema" = some a.authoritySchema
  authorityHash : textOf payload "authority_hash" = some (a.authorityHash host)
  principalId : textOf payload "principal_id" = some a.principalId
  channelType : textOf payload "channel_type" = some a.channelType
  channelId : textOf payload "channel_id" = some a.channelId
  threadId : textOf payload "thread_id" = some a.threadId
  omniSessionId : textOf payload "omni_session_id" = some a.omniSessionId
  messageId : textOf payload "message_id" = some a.messageId
  sourceHash : textOf payload "source_hash" = some a.sourceHash
  sessionGraphHash : textOf payload "session_graph_hash" = some a.sessionGraphHash
  messageCount : (payload.get "message_count").bind Json.asU64 = some a.messageCount

theorem toLedgerPayload_reports (host : Host) (a : OmniRouteAuthority) (parent : String) :
    Reports host a (a.toLedgerPayload host parent) := by
  generalize hash : a.authorityHash host = digest
  constructor <;> simp [textOf,OmniRouteAuthority.toLedgerPayload,Json.get,Json.lookup,Json.asStr,Json.nat,Json.asU64,hash]

theorem loggedWith_reports (host : Host) (call : RouteCall) (session : OmniSession) :
    Reports host (authorityOf host call.envelope session) (loggedWith host call session).payload :=
  toLedgerPayload_reports host (authorityOf host call.envelope session) call.parentReceivedEventId

theorem heardIn_logged (host : Host) (call : RouteCall) (session : OmniSession) :
    heardIn (loggedWith host call session) = call.heard := by
  have reports := loggedWith_reports host call session
  have created : (loggedWith host call session).createdAt = call.createdAt := rfl
  unfold heardIn
  rw [reports.principalId,reports.channelId,reports.channelType,reports.messageId,created]
  simp only [Option.getD_some,authorityOf,fromAuthorityValue_asStr,RouteCall.heard]

/-- The last route event of a principal. -/
def lastRouteOf (principal : String) (log : List LedgerEvent) : Option LedgerEvent :=
  (log.filter (fun e => decide (textOf e.payload "principal_id" = some principal))).getLast?

theorem lastRouteOf_concat (principal : String) (log : List LedgerEvent) (host : Host) (call : RouteCall)
    (session : OmniSession) : lastRouteOf principal (log ++ [loggedWith host call session]) =
      if call.envelope.principal = principal then some (loggedWith host call session) else lastRouteOf principal log := by
  have named : textOf (loggedWith host call session).payload "principal_id" = some call.envelope.principal :=
    (loggedWith_reports host call session).principalId
  by_cases same : call.envelope.principal = principal <;> simp [lastRouteOf,named,same]

/-- A run and its log. -/
structure Live (host : Host) (calls : List RouteCall) (manager : OmniSessionManager) (log : List LedgerEvent) : Prop where
  mirrors : Mirrors id manager (calls.map RouteCall.heard)
  heard : log.map heardIn = calls.map RouteCall.heard
  logged : ∀ event ∈ log, ∃ call ∈ calls, ∃ seen now, event = loggedWith host call seen ∧
    manager.sessions.lookup call.envelope.principal = some now ∧ seen.sessionId = now.sessionId
  latest : ∀ p event, lastRouteOf p log = some event → ∃ call seen, event = loggedWith host call seen ∧
    manager.sessions.lookup p = some seen
  drawn : ∀ p s, manager.sessions.lookup p = some s → ∃ call ∈ calls, s.sessionId = call.draw.sessionId

theorem live_new (host : Host) (maxTokens : Nat) : Live host [] (.new maxTokens) [] := by
  constructor
  · exact mirrors_empty id rfl rfl
  · rfl
  · intro event member
    cases member
  · intro p event last
    cases last
  · intro p s found
    simp [OmniSessionManager.new] at found

theorem Live.route {calls : List RouteCall} {log : List LedgerEvent} (live : Live host calls manager log) (call : RouteCall) :
    Live host (calls ++ [call]) (routeLogged host (manager, log) call).1 (routeLogged host (manager, log) call).2 := by
  obtain ⟨session, made, routed⟩ := routeLogged_eq host manager log call
  have shows := live.mirrors.sessionOrNew rfl call.draw call.envelope.principal
  have now : Shows id call.heard.principal (heardFrom call.heard.principal (calls.map RouteCall.heard) ++ [call.heard]) session := by
    have message : graphMessage (routedMessage host call.draw call.envelope) = call.heard.message := rfl
    rw [made]
    exact shows.route message call.draw.now
  have sessionId : session.sessionId = (manager.sessionOrNew call.draw call.envelope.principal).sessionId := by
    rw [made]
    exact (attachChannel_frame _ _).1
  have kept (p : String) (s : OmniSession) (found : manager.sessions.lookup p = some s) :
      ∃ s', (manager.sessions.insert call.heard.principal session).lookup p = some s' ∧ s.sessionId = s'.sessionId := by
    by_cases same : p = call.heard.principal
    · subst same
      refine ⟨session, AList.lookup_insert _, ?_⟩
      rw [sessionId,OmniSessionManager.sessionOrNew]
      have found : manager.sessions.lookup call.envelope.principal = some s := found
      rw [found]
      rfl
    · exact ⟨s, (AList.lookup_insert_ne same).trans found, rfl⟩
  rw [routed]
  constructor
  · rw [List.map_append]
    exact live.mirrors.hear now
  · rw [List.map_append,List.map_append,live.heard,List.map_singleton,List.map_singleton,heardIn_logged]
  · intro event member
    rcases List.mem_append.mp member with before | here
    · obtain ⟨c, inside, seen, then_, same, found, ids⟩ := live.logged event before
      obtain ⟨s', found', ids'⟩ := kept _ _ found
      exact ⟨c, List.mem_append_left _ inside, seen, s', same, found', ids.trans ids'⟩
    · exact ⟨call, List.mem_append_right _ (List.mem_singleton_self call), session, session, List.mem_singleton.mp here,
        AList.lookup_insert _, rfl⟩
  · intro p event last
    have last : lastRouteOf p (log ++ [loggedWith host call session]) = some event := last
    rw [lastRouteOf_concat] at last
    by_cases same : call.envelope.principal = p
    · subst same
      rw [if_pos rfl] at last
      exact ⟨call, session, (Option.some.inj last).symm, AList.lookup_insert _⟩
    · rw [if_neg same] at last
      obtain ⟨c, seen, logged, found⟩ := live.latest p event last
      exact ⟨c, seen, logged, (AList.lookup_insert_ne (Ne.symm same)).trans found⟩
  · intro p s found
    rcases Table.lookup_insert_cases found with ⟨rfl, rfl⟩ | ⟨_, found⟩
    · rw [sessionId,OmniSessionManager.sessionOrNew]
      cases before : manager.sessions.lookup call.envelope.principal with
      | none => exact ⟨call, List.mem_append_right _ (List.mem_singleton_self call), rfl⟩
      | some old =>
        obtain ⟨c, inside, drawn⟩ := live.drawn _ old before
        exact ⟨c, List.mem_append_left _ inside, drawn⟩
    · obtain ⟨c, inside, drawn⟩ := live.drawn p s found
      exact ⟨c, List.mem_append_left _ inside, drawn⟩

theorem live_run (host : Host) (maxTokens : Nat) (calls : List RouteCall) :
    Live host calls (liveRun host maxTokens calls).1 (liveRun host maxTokens calls).2 := by
  induction calls using List.reverseRecOn with
  | nil => exact live_new host maxTokens
  | append_singleton calls call ih =>
    rw [liveRun,List.foldl_append]
    exact ih.route call

/-! The loop of a replay. -/

/-- An event the loop can read, of a principal whose session has the id `ids` gives. -/
structure Readable (ids : String → Option String) (event : LedgerEvent) (route : RoutePayload) : Prop where
  read : readRoute event.payload = .ok route
  principal : (heardIn event).principal = route.principal
  channel : (heardIn event).channel = ⟨route.channelType, route.channelId⟩
  message : (heardIn event).messageId = route.messageId
  session : ids route.principal = some route.omniSessionId

structure Rebuilt (ids : String → Option String) (manager : OmniSessionManager) (heard : List Heard) : Prop where
  mirrors : Mirrors (firstOnly Heard.messageId) manager heard
  session : ∀ p s, manager.sessions.lookup p = some s → ids p = some s.sessionId

section

variable {ids : String → Option String} {heard : List Heard} {route : RoutePayload}

theorem replay_sessionId (session : OmniSession) (draw : Draw) (time : DateTime) (route : RoutePayload) :
    (session.replay draw time route).sessionId = route.omniSessionId := by
  have attached := (attachChannel_frame { session with sessionId := route.omniSessionId, lastActiveAt := time }
    ⟨route.channelType, route.channelId, draw.now, draw.now⟩).1
  unfold OmniSession.replay
  dsimp only
  split <;> exact attached

theorem Rebuilt.pass (rebuilt : Rebuilt ids manager heard) (readable : Readable ids event route) (draw : Draw)
    (createdAt : String) : Rebuilt ids (manager.replayRoute host draw createdAt route) (heard ++ [heardIn event]) := by
  have shows := (rebuilt.mirrors.sessionOrNew rfl draw route.principal).replay readable.channel readable.message draw
    (parseEventTime host draw createdAt)
  rw [← readable.principal] at shows
  have mirrors := rebuilt.mirrors.hear shows
  rw [readable.principal,readable.channel] at mirrors
  refine ⟨mirrors, ?_⟩
  intro p s found
  rcases Table.lookup_insert_cases found with ⟨rfl, rfl⟩ | ⟨_, found⟩
  · rw [replay_sessionId]
    exact readable.session
  · exact rebuilt.session p s found

theorem replayLoop_rebuilds (host : Host) (draws : Nat → Draw) {events : List LedgerEvent}
    (readable : ∀ event ∈ events, ∃ route, Readable ids event route) (state : Replaying)
    (rebuilt : Rebuilt ids state.manager heard) :
    ∃ state', replayLoop host draws state events = (state', none) ∧
      Rebuilt ids state'.manager (heard ++ events.map heardIn) ∧
      (state'.activePrincipal = state.activePrincipal ∨ ∃ e ∈ events, state'.activePrincipal = (heardIn e).principal) ∧
      (events ≠ [] → ∃ e ∈ events, state'.activePrincipal = (heardIn e).principal) := by
  induction events generalizing state heard with
  | nil => exact ⟨state, rfl, by rwa [List.map_nil,List.append_nil], .inl rfl, fun none => absurd rfl none⟩
  | cons event rest ih =>
    obtain ⟨route, here⟩ := readable event List.mem_cons_self
    have next : Rebuilt ids (state.pass host draws event route).manager (heard ++ [heardIn event]) :=
      rebuilt.pass here _ _
    obtain ⟨state', ran, done, active, _⟩ := ih (fun e member => readable e (List.mem_cons_of_mem _ member)) _ next
    have named : ∃ e ∈ event :: rest, state'.activePrincipal = (heardIn e).principal := by
      rcases active with same | ⟨e, member, same⟩
      · exact ⟨event, List.mem_cons_self, same.trans here.principal.symm⟩
      · exact ⟨e, List.mem_cons_of_mem _ member, same⟩
    refine ⟨state', ?_, ?_, .inr named, fun _ => named⟩
    · rw [replayLoop,here.read]
      exact ran
    · rwa [List.append_assoc,List.singleton_append,← List.map_cons] at done

/-- Replay of events it can read rebuilds what they tell, in the order of their times. -/
theorem replay_rebuilds (host : Host) (manager : OmniSessionManager) (draws : Nat → Draw) {events : List LedgerEvent}
    {principalFilter : Option String} (some_ : routesToReplay events principalFilter ≠ [])
    (readable : ∀ event ∈ routesToReplay events principalFilter, ∃ route, Readable ids event route) :
    ∃ replayed result, manager.replaySignedRouteEvents host draws events principalFilter = (replayed, .ok result) ∧
      Rebuilt ids replayed ((routesToReplay events principalFilter).map heardIn) := by
  have cleared : Rebuilt ids { manager with sessions := ∅, archivedSessions := ∅, channelMap := ∅ } [] := by
    refine ⟨mirrors_empty _ rfl rfl, ?_⟩
    intro p s found
    rw [AList.lookup_empty] at found
    cases found
  obtain ⟨state, ran, done, _, active⟩ := replayLoop_rebuilds host draws readable
    ⟨{ manager with sessions := ∅, archivedSessions := ∅, channelMap := ∅ }, 0, none, none, "", ""⟩ cleared
  rw [List.nil_append] at done
  obtain ⟨event, member, principal⟩ := active some_
  have spoke : heardFrom state.activePrincipal ((routesToReplay events principalFilter).map heardIn) ≠ [] := by
    refine List.ne_nil_of_mem (a := heardIn event) ?_
    exact List.mem_filter.mpr ⟨List.mem_map_of_mem member, decide_eq_true principal.symm⟩
  obtain ⟨session, found, _⟩ := done.mirrors.shown _ spoke
  have nonempty : (routesToReplay events principalFilter).isEmpty = false := by simpa using some_
  refine ⟨state.manager, ?_, ?_, done⟩
  rotate_left
  · unfold OmniSessionManager.replaySignedRouteEvents
    simp only [nonempty,ran,found,Bool.false_eq_true,if_false]
    rfl

end

/-! What the log of a run tells a replay of it. -/

theorem requiredPayloadStr_ok {payload : Json} {key value : String} (text : textOf payload key = some value)
    (named : trim value ≠ "") : requiredPayloadStr payload key = .ok value := by
  have kept : ((payload.get key).bind Json.asStr).filter (fun value => decide (trim value ≠ "")) = some value := by
    rw [← textOf,text,Option.filter_some,if_pos (decide_eq_true named)]
  rw [requiredPayloadStr,kept]

theorem digest_named (digest : host.DigestIsHex) (bytes : List UInt8) : trim (host.sha256Hex bytes) ≠ "" := by
  obtain ⟨length, lower⟩ := digest bytes
  refine trim_ne_of_lowerHex ?_ lower
  intro empty
  simp [empty] at length

/-- The session ids a manager has. -/
def sessionIds (manager : OmniSessionManager) (principal : String) : Option String :=
  (manager.sessions.lookup principal).map OmniSession.sessionId

/-- What the loop reads of a logged event. -/
def routeFrom (host : Host) (call : RouteCall) (session : OmniSession) : RoutePayload where
  principal := call.envelope.principal
  omniSessionId := session.sessionId
  channelId := call.envelope.channel
  messageId := call.envelope.messageId
  sourceHash := call.envelope.sourceHash
  authorityHash := (authorityOf host call.envelope session).authorityHash host
  channelType := .fromIngress call.envelope.source call.envelope.channel

theorem readRoute_logged (digest : host.DigestIsHex) (named : call.Named) (drawn : trim session.sessionId ≠ "") :
    readRoute (loggedWith host call session).payload = .ok (routeFrom host call session) := by
  have reports := loggedWith_reports host call session
  have typed : ((loggedWith host call session).payload.get "channel_type").bind Json.asStr = some _ := reports.channelType
  unfold readRoute
  rw [requiredPayloadStr_ok reports.principalId named.principal,requiredPayloadStr_ok reports.omniSessionId drawn,
    requiredPayloadStr_ok reports.channelId named.channel,requiredPayloadStr_ok reports.threadId named.thread,
    requiredPayloadStr_ok reports.messageId named.message,requiredPayloadStr_ok reports.sourceHash named.source,
    requiredPayloadStr_ok reports.authorityHash (digest_named digest _),typed]
  simp only [bind,Except.bind,Option.getD_some,fromAuthorityValue_asStr,routeFrom,authorityOf]

theorem logged_readable {now : OmniSession} (digest : host.DigestIsHex) (named : call.Named)
    (found : manager.sessions.lookup call.envelope.principal = some now) (same : session.sessionId = now.sessionId)
    (drawn : trim now.sessionId ≠ "") :
    Readable (sessionIds manager) (loggedWith host call session) (routeFrom host call session) := by
  have heard := heardIn_logged host call session
  refine ⟨readRoute_logged digest named (same ▸ drawn), ?_, ?_, ?_, ?_⟩
  · simp only [heard,RouteCall.heard,routeFrom]
  · simp only [heard,RouteCall.heard,routeFrom]
  · simp only [heard,RouteCall.heard,routeFrom]
  · simp only [routeFrom,sessionIds,found,Option.map_some,same]

theorem logged_signed (host : Host) (call : RouteCall) (session : OmniSession) (principalFilter : Option String) :
    isSignedRoute principalFilter (loggedWith host call session) =
      filterAccepts principalFilter (some (heardIn (loggedWith host call session)).principal) := by
  have reports := loggedWith_reports host call session
  have authority : ((loggedWith host call session).payload.get "authority").bind Json.asStr = some _ := reports.authority
  have schema : ((loggedWith host call session).payload.get "authority_schema").bind Json.asStr = some _ :=
    reports.authoritySchema
  have principal : ((loggedWith host call session).payload.get "principal_id").bind Json.asStr = some _ :=
    reports.principalId
  have kind : (loggedWith host call session).eventType = "omni.route" := rfl
  have signed : (loggedWith host call session).signature.isSome = true := rfl
  rw [isSignedRoute,authority,schema,principal,kind,signed,heardIn_logged]
  simp only [authorityOf,RouteCall.heard,decide_true,Bool.true_and]

section

variable {maxTokens : Nat} {calls : List RouteCall} {log order : List LedgerEvent} {principalFilter : Option String}

/-- Whom a replay is asked for. -/
def accepted (principalFilter : Option String) (h : Heard) : Bool := filterAccepts principalFilter (some h.principal)

/-- Replay, in whatever order it is given the log, takes the routes of those it is asked for. -/
theorem Live.replayed_perm (live : Live host calls manager log) (perm : order.Perm log) (principalFilter : Option String) :
    ((routesToReplay order principalFilter).map heardIn).Perm
      ((calls.map RouteCall.heard).filter (accepted principalFilter)) := by
  have taken : (routesToReplay order principalFilter).Perm (log.filter (isSignedRoute principalFilter)) :=
    (sortBy_perm LedgerEvent.createdAt _).trans (perm.filter _)
  have signed : log.filter (isSignedRoute principalFilter) = log.filter (accepted principalFilter ∘ heardIn) := by
    refine List.filter_congr ?_
    intro event member
    obtain ⟨call, _, seen, _, rfl, _⟩ := live.logged event member
    exact logged_signed host call seen principalFilter
  have mapped := taken.map heardIn
  rwa [signed,← List.filter_map,live.heard] at mapped

theorem heardFrom_accepted {p : String} (wanted : filterAccepts principalFilter (some p) = true) (heard : List Heard) :
    heardFrom p (heard.filter (accepted principalFilter)) = heardFrom p heard := by
  unfold heardFrom
  rw [List.filter_filter]
  refine List.filter_congr ?_
  intro h _
  by_cases same : h.principal = p
  · simp [same,accepted,wanted]
  · simp [same]

theorem Live.heardFrom_perm {p : String} (live : Live host calls manager log) (perm : order.Perm log)
    (wanted : filterAccepts principalFilter (some p) = true) :
    (heardFrom p ((routesToReplay order principalFilter).map heardIn)).Perm (heardFrom p (calls.map RouteCall.heard)) := by
  rw [← heardFrom_accepted wanted (calls.map RouteCall.heard)]
  exact (live.replayed_perm perm principalFilter).filter _

theorem Live.readable (live : Live host calls manager log) (digest : host.DigestIsHex) (named : ∀ call ∈ calls, call.Named) :
    ∀ event ∈ log, ∃ route, Readable (sessionIds manager) event route := by
  intro event member
  obtain ⟨call, inside, seen, now, rfl, found, same⟩ := live.logged event member
  obtain ⟨origin, before, drawn⟩ := live.drawn _ now found
  exact ⟨_, logged_readable digest (named call inside) found same (drawn ▸ (named origin before).session)⟩

/-- Whatever the order, replay of the log succeeds and rebuilds what was heard. -/
theorem Live.replays (live : Live host calls manager log) (digest : host.DigestIsHex) (named : ∀ call ∈ calls, call.Named)
    (wanted : ∃ call ∈ calls, filterAccepts principalFilter (some call.envelope.principal) = true) (perm : order.Perm log)
    (replaying : OmniSessionManager) (draws : Nat → Draw) :
    ∃ replayed result, replaying.replaySignedRouteEvents host draws order principalFilter = (replayed, .ok result) ∧
      Rebuilt (sessionIds manager) replayed ((routesToReplay order principalFilter).map heardIn) := by
  refine replay_rebuilds host replaying draws ?_ ?_
  · obtain ⟨call, member, accepts⟩ := wanted
    have inside : call.heard ∈ (calls.map RouteCall.heard).filter (accepted principalFilter) :=
      List.mem_filter.mpr ⟨List.mem_map_of_mem member, accepts⟩
    have taken := (live.replayed_perm perm principalFilter).mem_iff.mpr inside
    obtain ⟨event, replays, _⟩ := List.mem_map.mp taken
    exact List.ne_nil_of_mem replays
  · intro event member
    have signed := (sortBy_perm LedgerEvent.createdAt _).mem_iff.mp member
    exact live.readable digest named event (perm.mem_iff.mp (List.mem_filter.mp signed).1)

end

end

/-- Replay of the log of a run, in any order: it succeeds, each principal asked for has a session
with the hash and message count of its last event, and the channels are those of the live
manager that such a principal holds. -/
def Reproduces (host : Host) (maxTokens : Nat) (calls : List RouteCall) (principalFilter : Option String) : Prop :=
  ∀ order : List LedgerEvent, order.Perm (liveRun host maxTokens calls).2 → ∀ (manager : OmniSessionManager) (draws : Nat → Draw),
    ∃ replayed result, manager.replaySignedRouteEvents host draws order principalFilter = (replayed, .ok result) ∧
      (∀ principal event, filterAccepts principalFilter (some principal) = true →
        lastRouteOf principal (liveRun host maxTokens calls).2 = some event →
        ∃ session, replayed.sessions.lookup principal = some session ∧
          textOf event.payload "session_graph_hash" = some (sessionGraphHash host session) ∧
          (event.payload.get "message_count").bind Json.asU64 = some session.messages.length) ∧
      ∀ channel, replayed.channelMap.lookup channel = ((liveRun host maxTokens calls).1.channelMap.lookup channel).filter
        (fun principal => filterAccepts principalFilter (some principal))

/-- No principal asked for sends two messages with one id. -/
def DistinctIds (principalFilter : Option String) (heard : List Heard) : Prop :=
  ∀ principal, filterAccepts principalFilter (some principal) = true →
    ((heardFrom principal heard).map Heard.messageId).Nodup

/-- A route that is, by its time, a last one on its channel among those asked for comes from
the principal who really spoke there last. -/
def Settled (principalFilter : Option String) (heard : List Heard) : Prop :=
  ∀ h ∈ heard, accepted principalFilter h = true →
    (∀ g ∈ heard, accepted principalFilter g = true → g.channel = h.channel → g.createdAt ≤ h.createdAt) →
    lastOn h.channel heard = some h.principal

section

variable {host : Host} {manager : OmniSessionManager} {maxTokens : Nat} {calls : List RouteCall}
  {principalFilter : Option String}

/-- A principal that was heard has a last event. -/
theorem lastRouteOf_heard {p : String} {log : List LedgerEvent} (live : Live host calls manager log)
    (spoke : heardFrom p (calls.map RouteCall.heard) ≠ []) : ∃ event, lastRouteOf p log = some event := by
  obtain ⟨h, member⟩ := List.exists_mem_of_ne_nil _ spoke
  obtain ⟨inside, principal⟩ := List.mem_filter.mp member
  rw [← live.heard] at inside
  obtain ⟨event, logged, rfl⟩ := List.mem_map.mp inside
  obtain ⟨call, _, seen, _, rfl, _⟩ := live.logged event logged
  rw [heardIn_logged] at principal
  have named : textOf (loggedWith host call seen).payload "principal_id" = some p := by
    rw [(loggedWith_reports host call seen).principalId]
    exact congrArg some (of_decide_eq_true principal)
  have listed : loggedWith host call seen ∈ log.filter (fun e => decide (textOf e.payload "principal_id" = some p)) :=
    List.mem_filter.mpr ⟨logged, decide_eq_true named⟩
  exact Option.isSome_iff_exists.mp (List.getLast?_isSome.mpr (List.ne_nil_of_mem listed))

/-- The message counts agree only if replay dropped nothing. -/
theorem distinct_of_reproduces (digest : host.DigestIsHex) (named : ∀ call ∈ calls, call.Named)
    (wanted : ∃ call ∈ calls, filterAccepts principalFilter (some call.envelope.principal) = true)
    (reproduces : Reproduces host maxTokens calls principalFilter) :
    DistinctIds principalFilter (calls.map RouteCall.heard) := by
  intro p accepts
  have live := live_run host maxTokens calls
  by_cases silent : heardFrom p (calls.map RouteCall.heard) = []
  · rw [silent]
    exact List.nodup_nil
  obtain ⟨event, last⟩ := lastRouteOf_heard live silent
  obtain ⟨call, seen, rfl, found⟩ := live.latest p event last
  obtain ⟨replayed, result, ran, rebuilt⟩ :=
    live.replays digest named wanted (List.Perm.refl _) (.new maxTokens) (fun _ => call.draw)
  obtain ⟨replayed', result', ran', sessions, _⟩ :=
    reproduces _ (List.Perm.refl _) (.new maxTokens) (fun _ => call.draw)
  obtain ⟨rfl, _⟩ := Prod.mk.inj (ran.symm.trans ran')
  obtain ⟨session, here, _, counted⟩ := sessions p _ accepts last
  rw [(loggedWith_reports host call seen).messageCount] at counted
  have counts : seen.messages.length = session.messages.length := Option.some.inj counted
  have perm := live.heardFrom_perm (List.Perm.refl _) accepts
  have spoke : heardFrom p ((routesToReplay (liveRun host maxTokens calls).2 principalFilter).map heardIn) ≠ [] := by
    intro none
    rw [none] at perm
    exact silent perm.nil_eq.symm
  obtain ⟨s, known, shows⟩ := live.mirrors.shown p silent
  obtain rfl := Option.some.inj (known.symm.trans found)
  obtain ⟨s', known', shows'⟩ := rebuilt.mirrors.shown p spoke
  obtain rfl := Option.some.inj (known'.symm.trans here)
  rw [shows.length,shows'.length,id,← perm.length_eq] at counts
  exact (perm.map Heard.messageId).nodup_iff.mp (nodup_of_firstOnly_length counts.symm)

theorem mem_of_lastOn {k : ChannelKey} {p : String} {heard : List Heard} (last : lastOn k heard = some p) :
    ∃ h ∈ heard, h.channel = k ∧ h.principal = p ∧ (heardOn k heard).getLast? = some h := by
  obtain ⟨h, here, rfl⟩ := Option.map_eq_some_iff.mp last
  obtain ⟨inside, same⟩ := List.mem_filter.mp (List.mem_of_getLast? here)
  exact ⟨h, inside, of_decide_eq_true same, rfl, here⟩

/-- Who spoke last on a channel, as replay finds it. -/
theorem lastOn_replayed (k : ChannelKey) (order : List LedgerEvent) (principalFilter : Option String) :
    lastOn k ((routesToReplay order principalFilter).map heardIn) =
      (((routesToReplay order principalFilter).filter (fun e => decide ((heardIn e).channel = k))).getLast?).map
        (fun e => (heardIn e).principal) := by
  generalize routesToReplay order principalFilter = routes
  simp only [lastOn,heardOn,List.filter_map,List.getLast?_map,Option.map_map,Function.comp_def]

/-- The event of a route that is a last one by its time may as well be given last. -/
theorem settled_of_reproduces (digest : host.DigestIsHex) (named : ∀ call ∈ calls, call.Named)
    (wanted : ∃ call ∈ calls, filterAccepts principalFilter (some call.envelope.principal) = true)
    (reproduces : Reproduces host maxTokens calls principalFilter) :
    Settled principalFilter (calls.map RouteCall.heard) := by
  intro h member accepts latest
  have live := live_run host maxTokens calls
  obtain ⟨first, _⟩ := id wanted
  rw [← live.heard] at member latest
  obtain ⟨event, logged, rfl⟩ := List.mem_map.mp member
  obtain ⟨before, after, split⟩ := List.append_of_mem logged
  have perm : (before ++ after ++ [event]).Perm (liveRun host maxTokens calls).2 := by
    rw [split,List.append_assoc]
    exact (List.perm_append_singleton event after).append_left before
  obtain ⟨replayed, result, ran, rebuilt⟩ := live.replays digest named wanted perm (.new maxTokens) (fun _ => first.draw)
  obtain ⟨replayed', result', ran', _, channels⟩ := reproduces _ perm (.new maxTokens) (fun _ => first.draw)
  obtain ⟨rfl, _⟩ := Prod.mk.inj (ran.symm.trans ran')
  have signed (e : LedgerEvent) (inside : e ∈ (liveRun host maxTokens calls).2) :
      isSignedRoute principalFilter e = accepted principalFilter (heardIn e) := by
    obtain ⟨call, _, seen, _, rfl, _⟩ := live.logged e inside
    exact logged_signed host call seen principalFilter
  have last : ((routesToReplay (before ++ after ++ [event]) principalFilter).filter
      (fun e => decide ((heardIn e).channel = (heardIn event).channel))).getLast? = some event := by
    have taken : (before ++ after ++ [event]).filter (isSignedRoute principalFilter) =
        (before ++ after).filter (isSignedRoute principalFilter) ++ [event] := by
      rw [List.filter_append,List.filter_singleton,signed event logged,accepts]
      rfl
    unfold routesToReplay
    rw [taken]
    refine getLast?_sortBy (decide_eq_true rfl) ?_
    intro other inside same
    obtain ⟨inside, mine⟩ := List.mem_filter.mp inside
    have known : other ∈ (liveRun host maxTokens calls).2 := perm.mem_iff.mp (List.mem_append_left _ inside)
    exact latest (heardIn other) (List.mem_map_of_mem known) (signed other known ▸ mine) (of_decide_eq_true same)
  have there := channels (heardIn event).channel
  rw [rebuilt.mirrors.channels,live.mirrors.channels,lastOn_replayed,last] at there
  exact (Option.filter_eq_some_iff.mp there.symm).1

/-- On a settled channel replay finds the principal who spoke last, if it is one asked for. -/
theorem lastOn_replayed_settled {log order : List LedgerEvent} (live : Live host calls manager log) (perm : order.Perm log)
    (settled : Settled principalFilter (calls.map RouteCall.heard)) (k : ChannelKey) :
    lastOn k ((routesToReplay order principalFilter).map heardIn) =
      (lastOn k (calls.map RouteCall.heard)).filter (fun p => filterAccepts principalFilter (some p)) := by
  have heard := live.replayed_perm perm principalFilter
  cases there : lastOn k ((routesToReplay order principalFilter).map heardIn) with
  | some p =>
    rw [lastOn_replayed] at there
    obtain ⟨event, last, rfl⟩ := Option.map_eq_some_iff.mp there
    obtain ⟨taken, same⟩ := List.mem_filter.mp (List.mem_of_getLast? last)
    have same : (heardIn event).channel = k := of_decide_eq_true same
    obtain ⟨inside, accepts⟩ := List.mem_filter.mp (heard.mem_iff.mp (List.mem_map_of_mem taken))
    have spoke := settled (heardIn event) inside accepts (by
      intro g member mine channel
      have replays : g ∈ (routesToReplay order principalFilter).map heardIn :=
        heard.mem_iff.mpr (List.mem_filter.mpr ⟨member, mine⟩)
      obtain ⟨other, listed, rfl⟩ := List.mem_map.mp replays
      have signed := (sortBy_perm LedgerEvent.createdAt _).mem_iff.mp listed
      exact le_of_getLast?_sortBy last other signed (decide_eq_true (channel.trans same)))
    rw [same] at spoke
    rw [spoke,Option.filter_some]
    exact (if_pos accepts).symm
  | none =>
    symm
    refine Option.filter_eq_none_iff.mpr ?_
    intro p spoke accepts
    obtain ⟨h, inside, channel, principal, _⟩ := mem_of_lastOn spoke
    have taken : h ∈ (routesToReplay order principalFilter).map heardIn :=
      heard.mem_iff.mpr (List.mem_filter.mpr ⟨inside, by rw [accepted,principal]; exact accepts⟩)
    have listed : h ∈ heardOn k ((routesToReplay order principalFilter).map heardIn) :=
      List.mem_filter.mpr ⟨taken, decide_eq_true channel⟩
    rw [lastOn,Option.map_eq_none_iff,List.getLast?_eq_none_iff] at there
    rw [there] at listed
    cases listed

theorem reproduces_of_distinct (digest : host.DigestIsHex) (named : ∀ call ∈ calls, call.Named)
    (wanted : ∃ call ∈ calls, filterAccepts principalFilter (some call.envelope.principal) = true)
    (distinct : DistinctIds principalFilter (calls.map RouteCall.heard))
    (settled : Settled principalFilter (calls.map RouteCall.heard)) :
    Reproduces host maxTokens calls principalFilter := by
  intro order perm replaying draws
  have live := live_run host maxTokens calls
  obtain ⟨replayed, result, ran, rebuilt⟩ := live.replays digest named wanted perm replaying draws
  refine ⟨replayed, result, ran, ?_, ?_⟩
  · intro p event accepts last
    obtain ⟨call, seen, rfl, found⟩ := live.latest p event last
    have spoke : heardFrom p (calls.map RouteCall.heard) ≠ [] := by
      intro silent
      rw [live.mirrors.silent p silent] at found
      cases found
    have heard := live.heardFrom_perm perm accepts
    have spoke' : heardFrom p ((routesToReplay order principalFilter).map heardIn) ≠ [] := by
      intro silent
      rw [silent] at heard
      exact spoke heard.nil_eq.symm
    obtain ⟨s, known, shows⟩ := live.mirrors.shown p spoke
    obtain rfl := Option.some.inj (known.symm.trans found)
    obtain ⟨session, here, shows'⟩ := rebuilt.mirrors.shown p spoke'
    have ids := rebuilt.session p session here
    rw [sessionIds,found] at ids
    have reports := loggedWith_reports host call s
    refine ⟨session, here, ?_, ?_⟩
    · rw [reports.sessionGraphHash,shows.sessionGraphHash host shows' heard (distinct p accepts) (Option.some.inj ids).symm]
      rfl
    · have distinct' := (heard.map Heard.messageId).nodup_iff.mpr (distinct p accepts)
      rw [reports.messageCount,shows'.length,firstOnly_of_nodup distinct',heard.length_eq]
      exact congrArg some shows.length
  · intro channel
    rw [rebuilt.mirrors.channels,live.mirrors.channels]
    exact lastOn_replayed_settled live perm settled channel

/-- Replay of the log of a run reproduces the live session graph exactly when no principal asked
for sent two messages with one id, and every channel is settled by the times of its routes. -/
theorem replay_reproduces_iff (digest : host.DigestIsHex) (maxTokens : Nat) (named : ∀ call ∈ calls, call.Named)
    (wanted : ∃ call ∈ calls, filterAccepts principalFilter (some call.envelope.principal) = true) :
    Reproduces host maxTokens calls principalFilter ↔
      DistinctIds principalFilter (calls.map RouteCall.heard) ∧ Settled principalFilter (calls.map RouteCall.heard) := by
  constructor
  · intro reproduces
    exact ⟨distinct_of_reproduces digest named wanted reproduces, settled_of_reproduces digest named wanted reproduces⟩
  · rintro ⟨distinct, settled⟩
    exact reproduces_of_distinct digest named wanted distinct settled

/-- Times that all differ settle every channel, when nobody is left out. -/
theorem settled_of_increasing {heard : List Heard} (increasing : heard.Pairwise (fun a b => a.createdAt < b.createdAt)) :
    Settled none heard := by
  intro h member _ latest
  cases there : lastOn h.channel heard with
  | none =>
    rw [lastOn,Option.map_eq_none_iff,List.getLast?_eq_none_iff] at there
    have listed : h ∈ heardOn h.channel heard := List.mem_filter.mpr ⟨member, decide_eq_true rfl⟩
    rw [there] at listed
    cases listed
  | some p =>
    obtain ⟨g, inside, channel, rfl, last⟩ := mem_of_lastOn there
    obtain ⟨front, split⟩ := List.getLast?_eq_some_iff.mp last
    have below := latest g inside rfl channel
    have listed : h ∈ front ++ [g] := split ▸ List.mem_filter.mpr ⟨member, decide_eq_true rfl⟩
    have ordered : (front ++ [g]).Pairwise (fun a b => a.createdAt < b.createdAt) := split ▸ increasing.filter _
    rcases List.mem_append.mp listed with before | here
    · have above := (List.pairwise_append.mp ordered).2.2 h before g (List.mem_singleton_self g)
      exact absurd above (not_lt_of_ge below)
    · rw [List.mem_singleton.mp here]

end

def sampleCall (session message createdAt : String) : RouteCall where
  draw := ⟨session, sampleNow⟩
  envelope := {
    source := "cli"
    principal := "zaion1ab"
    channel := "terminal"
    thread := "main"
    messageId := message
    sourceHash := "0123456789abcdef"
    body := "hello"
    receivedAt := "2026-01-01T00:00:00Z"
    identified := by decide }
  eventId := "event-" ++ createdAt
  signer := "zaion1ab"
  namespaceKey := "default"
  runId := none
  signature := []
  createdAt := createdAt
  parentEventId := none
  parentReceivedEventId := "received"

/-- Two messages the platform gave one id. -/
def repeatedId : List RouteCall :=
  [sampleCall "s-1" "m-1" "2026-01-01T00:00:00Z", sampleCall "s-2" "m-1" "2026-01-01T00:00:01Z"]

def differentIds : List RouteCall :=
  [sampleCall "s-1" "m-1" "2026-01-01T00:00:00Z", sampleCall "s-2" "m-2" "2026-01-01T00:00:01Z"]

theorem repeatedId_named : ∀ call ∈ repeatedId, call.Named := by
  intro call member
  simp only [repeatedId,List.mem_cons,List.not_mem_nil,or_false] at member
  rcases member with rfl | rfl <;> constructor <;> decide

theorem differentIds_named : ∀ call ∈ differentIds, call.Named := by
  intro call member
  simp only [differentIds,List.mem_cons,List.not_mem_nil,or_false] at member
  rcases member with rfl | rfl <;> constructor <;> decide

/-- Live routing keeps both messages, replay one. -/
theorem repeated_id_not_reproduced : (∀ call ∈ repeatedId, call.Named) ∧
    repeatedId.Pairwise (fun a b => a.createdAt ≤ b.createdAt) ∧ ¬ Reproduces sha256Host 8 repeatedId none := by
  refine ⟨repeatedId_named, by decide, ?_⟩
  intro reproduces
  have distinct := distinct_of_reproduces sha256Host_digestIsHex repeatedId_named
    ⟨_, List.mem_cons_self, rfl⟩ reproduces "zaion1ab" rfl
  revert distinct
  decide

theorem different_ids_reproduced : Reproduces sha256Host 8 differentIds none := by
  refine (replay_reproduces_iff sha256Host_digestIsHex 8 differentIds_named ⟨_, List.mem_cons_self, rfl⟩).mpr ⟨?_, ?_⟩
  · intro p _
    have distinct : ((differentIds.map RouteCall.heard).map Heard.messageId).Nodup := by decide
    exact List.Nodup.sublist (List.filter_sublist.map _) distinct
  · exact settled_of_increasing (by decide)

end Zaion.Omni
