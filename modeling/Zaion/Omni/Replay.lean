import Zaion.Omni.Session

/-! `replay_signed_route_events`: the session graph rebuilt from logged routes. Each pass of
the loop draws a session id and a clock reading of its own, `draws i` in the i-th. -/
namespace Zaion.Omni

open Lib Ledger

structure OmniSessionGraphReplay where
  schema : String
  principalId : String
  activeOmniSessionId : String
  routeEventCount : Nat
  verifiedRouteEventCount : Nat
  messageCount : Nat
  attachmentCount : Nat
  channelCount : Nat
  lastRouteEventId : Option String
  lastAuthorityHash : Option String
  replayHash : String
  deriving DecidableEq

def requiredPayloadStr (payload : Json) (key : String) : Except RuntimeError String :=
  match ((payload.get key).bind Json.asStr).filter (fun value => decide (trim value ≠ "")) with
  | some value => .ok value
  | none => .error (.internal ("omni.route replay missing required payload field `" ++ key ++ "`"))

/-- `parse_event_time`. -/
def parseEventTime (host : Host) (draw : Draw) (value : String) : DateTime := (host.parseRfc3339 value).getD draw.now

/-- What one pass reads of a payload. -/
structure RoutePayload where
  principal : String
  omniSessionId : String
  channelId : String
  messageId : String
  sourceHash : String
  authorityHash : String
  channelType : ChannelType
  deriving DecidableEq

def readRoute (payload : Json) : Except RuntimeError RoutePayload := do
  let principal ← requiredPayloadStr payload "principal_id"
  let omniSessionId ← requiredPayloadStr payload "omni_session_id"
  let channelId ← requiredPayloadStr payload "channel_id"
  let _ ← requiredPayloadStr payload "thread_id"
  let messageId ← requiredPayloadStr payload "message_id"
  let sourceHash ← requiredPayloadStr payload "source_hash"
  let authorityHash ← requiredPayloadStr payload "authority_hash"
  .ok {
    principal := principal
    omniSessionId := omniSessionId
    channelId := channelId
    messageId := messageId
    sourceHash := sourceHash
    authorityHash := authorityHash
    channelType := .fromAuthorityValue (((payload.get "channel_type").bind Json.asStr).getD "") channelId }

/-- The message a route is replayed as. -/
def replayedMessage (time : DateTime) (route : RoutePayload) : UnifiedMessage where
  messageId := route.messageId
  sourceChannel := route.channelType
  sourceChannelId := route.channelId
  role := "user"
  content := "source_hash:" ++ route.sourceHash
  signature := none
  timestamp := time
  importance := routedImportance
  layer := .l1Recent

def OmniSession.replay (session : OmniSession) (draw : Draw) (time : DateTime) (route : RoutePayload) : OmniSession :=
  let session := { session with sessionId := route.omniSessionId, lastActiveAt := time }
  let session := session.attachChannel ⟨route.channelType, route.channelId, draw.now, draw.now⟩
  if session.messages.any (fun message => decide (message.messageId = route.messageId)) then session
  else session.addMessage (replayedMessage time route) draw.now

namespace OmniSessionManager

def replayRoute (host : Host) (manager : OmniSessionManager) (draw : Draw) (createdAt : String)
    (route : RoutePayload) : OmniSessionManager :=
  let session := (manager.sessionOrNew draw route.principal).replay draw (parseEventTime host draw createdAt) route
  { manager with
    sessions := manager.sessions.insert route.principal session
    channelMap := manager.channelMap.insert ⟨route.channelType, route.channelId⟩ route.principal }

/-- The variables of the loop, and how many passes it made. -/
structure Replaying where
  manager : OmniSessionManager
  passes : Nat
  lastRouteEventId : Option String
  lastAuthorityHash : Option String
  activePrincipal : String
  activeOmniSessionId : String

def Replaying.pass (host : Host) (draws : Nat → Draw) (state : Replaying) (event : LedgerEvent)
    (route : RoutePayload) : Replaying where
  manager := state.manager.replayRoute host (draws state.passes) event.createdAt route
  passes := state.passes + 1
  lastRouteEventId := some event.eventId
  lastAuthorityHash := some route.authorityHash
  activePrincipal := route.principal
  activeOmniSessionId := route.omniSessionId

/-- The loop, up to the first event it cannot read. -/
def replayLoop (host : Host) (draws : Nat → Draw) (state : Replaying) : List LedgerEvent → Replaying × Option RuntimeError
  | [] => (state, none)
  | event :: rest =>
    match readRoute event.payload with
    | .error error => (state, some error)
    | .ok route => replayLoop host draws (state.pass host draws event route) rest

/-- What `principal_filter` lets through. -/
def filterAccepts (principalFilter : Option String) (principal : Option String) : Bool :=
  match principalFilter with
  | some wanted => decide (principal = some wanted)
  | none => true

def isSignedRoute (principalFilter : Option String) (event : LedgerEvent) : Bool :=
  decide (event.eventType = "omni.route") && event.signature.isSome &&
    decide ((event.payload.get "authority").bind Json.asStr = some "OmniSessionManager") &&
    decide ((event.payload.get "authority_schema").bind Json.asStr = some "zaion.omni_session_authority.v1") &&
    filterAccepts principalFilter ((event.payload.get "principal_id").bind Json.asStr)

/-- The routes in the order the loop takes them. -/
def routesToReplay (events : List LedgerEvent) (principalFilter : Option String) : List LedgerEvent :=
  (events.filter (isSignedRoute principalFilter)).mergeSort (fun a b => decide (a.createdAt ≤ b.createdAt))

/-- A failed replay leaves the manager as far as it came. -/
def replaySignedRouteEvents (host : Host) (manager : OmniSessionManager) (draws : Nat → Draw)
    (events : List LedgerEvent) (principalFilter : Option String) :
    OmniSessionManager × Except RuntimeError OmniSessionGraphReplay :=
  let routes := routesToReplay events principalFilter
  if routes.isEmpty then
    (manager, .error (.internal "no signed OmniSessionManager route events available for replay"))
  else
    let cleared := { manager with sessions := ∅, archivedSessions := ∅, channelMap := ∅ }
    match replayLoop host draws ⟨cleared, 0, none, none, "", ""⟩ routes with
    | (state, some error) => (state.manager, .error error)
    | (state, none) =>
      match state.manager.sessions.lookup state.activePrincipal with
      | none => (state.manager, .error (.internal "OmniSession graph replay produced no active session"))
      | some session => (state.manager, .ok {
          schema := "zaion.omni_session_graph_replay.v1"
          principalId := state.activePrincipal
          activeOmniSessionId := state.activeOmniSessionId
          routeEventCount := routes.length
          verifiedRouteEventCount := routes.length
          messageCount := session.messages.length
          attachmentCount := session.attachments.length
          channelCount := state.manager.channelMap.entries.length
          lastRouteEventId := state.lastRouteEventId
          lastAuthorityHash := state.lastAuthorityHash
          replayHash := sessionGraphHash host session })

end OmniSessionManager

/-! Live routing with its log. -/

/-- A call of `route_envelope` and the ledger's part of the event it is logged as. -/
structure RouteCall where
  draw : Draw
  envelope : CanonicalEnvelope
  eventId : String
  signer : String
  namespaceKey : String
  runId : Option String
  signature : List UInt8
  createdAt : String
  parentEventId : Option String
  parentReceivedEventId : String

def RouteCall.logged (host : Host) (call : RouteCall) (authority : OmniRouteAuthority) : LedgerEvent where
  eventId := call.eventId
  principalId := call.signer
  namespaceKey := call.namespaceKey
  runId := call.runId
  eventType := "omni.route"
  payload := authority.toLedgerPayload host call.parentReceivedEventId
  signature := some call.signature
  createdAt := call.createdAt
  parentEventId := call.parentEventId

def routeLogged (host : Host) (run : OmniSessionManager × List LedgerEvent) (call : RouteCall) :
    OmniSessionManager × List LedgerEvent :=
  match run.1.routeEnvelope host call.draw call.envelope with
  | (manager, .ok authority) => (manager, run.2 ++ [call.logged host authority])
  | (manager, .error _) => (manager, run.2)

/-- The manager after the calls and the log they leave. -/
def liveRun (host : Host) (maxTokens : Nat) (calls : List RouteCall) : OmniSessionManager × List LedgerEvent :=
  calls.foldl (routeLogged host) (.new maxTokens, [])

end Zaion.Omni
