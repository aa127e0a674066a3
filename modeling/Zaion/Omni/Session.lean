import Zaion.Ledger.Events
import Zaion.Lib.Text
import Mathlib.Data.List.AList

/-! `OmniSessionManager`: one active session for each principal, the sessions split off and
archived, and the principal each channel last spoke for. A call takes what it draws from
its surroundings, a fresh session id and a clock reading, as an argument. Display and media
capabilities, which no routine here reads, are left out. -/
namespace Zaion.Omni

open Lib

inductive ChannelType where
  | cli
  | telegram
  | discord
  | feishu
  | dingTalk
  | slack
  | matrix
  | apiServer
  | mcp
  | acp
  | webhook
  | email
  deriving DecidableEq, Repr

namespace ChannelType

def asStr : ChannelType → String
  | .cli => "cli"
  | .telegram => "telegram"
  | .discord => "discord"
  | .feishu => "feishu"
  | .dingTalk => "dingtalk"
  | .slack => "slack"
  | .matrix => "matrix"
  | .apiServer => "api-server"
  | .mcp => "mcp"
  | .acp => "acp"
  | .webhook => "webhook"
  | .email => "email"

/-- The sources `from_ingress` and `from_authority_value` read alike. -/
def ofName? : String → Option ChannelType
  | "telegram" => some .telegram
  | "discord" => some .discord
  | "feishu" => some .feishu
  | "lark" => some .feishu
  | "dingtalk" => some .dingTalk
  | "slack" => some .slack
  | "matrix" => some .matrix
  | "mcp" => some .mcp
  | "acp" => some .acp
  | "webhook" => some .webhook
  | "email" => some .email
  | _ => none

/-- `from_ingress`, the last table: what the channel id alone says. -/
def ofChannelId : String → ChannelType
  | "telegram" => .telegram
  | "mcp" => .mcp
  | "acp" => .acp
  | "webhook" => .webhook
  | "http-webhook" => .webhook
  | "api" => .apiServer
  | "http" => .apiServer
  | _ => .cli

def fromIngress (source channelId : String) : ChannelType :=
  let source := toAsciiLowercase (trim source)
  let channelId := toAsciiLowercase (trim channelId)
  match ofName? source with
  | some channelType => channelType
  | none =>
    if source ∈ ["http", "api", "api-server"] then
      if containsText channelId "webhook" then .webhook else .apiServer
    else if source ∈ ["cli", "terminal", "tui", "internal-queue"] then .cli
    else ofChannelId channelId

def fromAuthorityValue (value channelId : String) : ChannelType :=
  let name := toAsciiLowercase (trim value)
  match ofName? name with
  | some channelType => channelType
  | none =>
    if name = "cli" then .cli
    else if name ∈ ["api-server", "api", "http"] then .apiServer
    else fromIngress value channelId

end ChannelType

structure ChannelAttachment where
  channelType : ChannelType
  channelId : String
  attachedAt : DateTime
  lastActiveAt : DateTime
  deriving DecidableEq

structure TurnSignature where
  scheme : String
  signature : List UInt8
  signingKeyId : String
  schemaVersion : Nat
  deriving DecidableEq

inductive ContextLayer where
  | l0Critical
  | l1Recent
  | l2Important
  | l3Background
  | l4Archive
  deriving DecidableEq, Repr

/-- The name `serde` writes. -/
def ContextLayer.name : ContextLayer → String
  | .l0Critical => "L0Critical"
  | .l1Recent => "L1Recent"
  | .l2Important => "L2Important"
  | .l3Background => "L3Background"
  | .l4Archive => "L4Archive"

/-- `importance` is the bit pattern of an `f32`. -/
structure UnifiedMessage where
  messageId : String
  sourceChannel : ChannelType
  sourceChannelId : String
  role : String
  content : String
  signature : Option TurnSignature
  timestamp : DateTime
  importance : UInt32
  layer : ContextLayer
  deriving DecidableEq

structure OmniSession where
  sessionId : String
  principalId : String
  messages : List UnifiedMessage
  attachments : List ChannelAttachment
  createdAt : DateTime
  lastActiveAt : DateTime
  parentSessionId : Option String
  childSessionIds : List String
  totalTokens : Nat
  maxTokens : Nat
  deriving DecidableEq

/-- What a call draws: the uuid of a session it may create, and the time. -/
structure Draw where
  sessionId : String
  now : DateTime

/-- `estimate_tokens`. -/
def estimateTokens (text : String) : Nat := text.utf8ByteSize / 4

namespace OmniSession

def new (principalId : String) (maxTokens : Nat) (draw : Draw) : OmniSession :=
  ⟨draw.sessionId, principalId, [], [], draw.now, draw.now, none, [], 0, maxTokens⟩

def addMessage (session : OmniSession) (message : UnifiedMessage) (now : DateTime) : OmniSession :=
  { session with
    totalTokens := session.totalTokens + estimateTokens message.content
    messages := session.messages ++ [message]
    lastActiveAt := now }

def attachChannel (session : OmniSession) (attachment : ChannelAttachment) : OmniSession :=
  if session.attachments.any (fun a => decide (a.channelType = attachment.channelType) &&
      decide (a.channelId = attachment.channelId)) then session
  else { session with attachments := session.attachments ++ [attachment] }

def needsSplit (session : OmniSession) : Bool := decide (session.maxTokens ≤ session.totalTokens)

end OmniSession

structure ChannelKey where
  channelType : ChannelType
  channelId : String
  deriving DecidableEq, Repr

/-- The hash maps of the source, as association lists without repeated keys. -/
structure OmniSessionManager where
  sessions : AList (fun _ : String => OmniSession)
  archivedSessions : AList (fun _ : String => OmniSession)
  channelMap : AList (fun _ : ChannelKey => String)
  defaultMaxTokens : Nat

inductive RuntimeError where
  | internal (text : String)
  deriving DecidableEq, Repr

namespace OmniSessionManager

def new (defaultMaxTokens : Nat) : OmniSessionManager := ⟨∅, ∅, ∅, defaultMaxTokens⟩

/-- `get_or_create_session`; the session is put back by the caller. -/
def sessionOrNew (manager : OmniSessionManager) (draw : Draw) (principalId : String) : OmniSession :=
  (manager.sessions.lookup principalId).getD (.new principalId manager.defaultMaxTokens draw)

def routeMessage (manager : OmniSessionManager) (draw : Draw) (channelType : ChannelType) (channelId principalId : String)
    (message : UnifiedMessage) : OmniSessionManager :=
  let session := manager.sessionOrNew draw principalId
  let session := session.attachChannel ⟨channelType, channelId, draw.now, draw.now⟩
  let session := session.addMessage message draw.now
  { manager with
    channelMap := manager.channelMap.insert ⟨channelType, channelId⟩ principalId
    sessions := manager.sessions.insert principalId session }

/-- `MAX_INHERITED_L1_MESSAGES`. -/
def maxInheritedL1Messages : Nat := 20

/-- What a child takes over: the critical messages, then the last recent ones. -/
def inheritedMessages (messages : List UnifiedMessage) : List UnifiedMessage :=
  messages.filter (fun m => decide (m.layer = .l0Critical)) ++
    ((messages.filter (fun m => decide (m.layer = .l1Recent))).reverse.take maxInheritedL1Messages).reverse

def tokensOf (messages : List UnifiedMessage) : Nat :=
  messages.foldl (fun total message => total + estimateTokens message.content) 0

def splitSession (manager : OmniSessionManager) (draw : Draw) (principalId : String) :
    OmniSessionManager × Except RuntimeError String :=
  match manager.sessions.lookup principalId with
  | none => (manager, .error (.internal "Session not found"))
  | some session =>
    let inherited := inheritedMessages session.messages
    let child := { OmniSession.new principalId manager.defaultMaxTokens draw with
      parentSessionId := some session.sessionId
      totalTokens := tokensOf inherited
      messages := inherited
      attachments := session.attachments }
    let archived := { session with childSessionIds := session.childSessionIds ++ [child.sessionId] }
    ({ manager with
        archivedSessions := manager.archivedSessions.insert archived.sessionId archived
        sessions := (manager.sessions.erase principalId).insert principalId child },
      .ok child.sessionId)

end OmniSessionManager

/-! Envelopes, the authority a route returns, and its ledger payload. -/

/-- `CanonicalEnvelope`, as far as routing reads it. `source_hash[..16]` must be a slice for
the call to return. -/
structure CanonicalEnvelope where
  source : String
  principal : String
  channel : String
  thread : String
  messageId : String
  sourceHash : String
  body : String
  receivedAt : String
  identified : (firstBytes 16 sourceHash.toList).isSome

namespace CanonicalEnvelope

def sessionId (envelope : CanonicalEnvelope) : String := envelope.principal ++ ":" ++ envelope.thread

def envelopeId (envelope : CanonicalEnvelope) : String :=
  String.ofList ((firstBytes 16 envelope.sourceHash.toList).get envelope.identified)

end CanonicalEnvelope

structure OmniRouteAuthority where
  authority : String
  authoritySchema : String
  sessionId : String
  omniSessionId : String
  principalId : String
  channelType : String
  channelId : String
  threadId : String
  messageId : String
  envelopeId : String
  sourceHash : String
  route : String
  channelAttached : Bool
  messageCount : Nat
  attachmentCount : Nat
  sessionGraphHash : String
  deriving DecidableEq

namespace OmniRouteAuthority

def authorityHash (host : Host) (a : OmniRouteAuthority) : String :=
  host.sha256Hex (Host.utf8 (host.toText (.obj [
    ("authority", .str a.authority),
    ("authority_schema", .str a.authoritySchema),
    ("session_id", .str a.sessionId),
    ("omni_session_id", .str a.omniSessionId),
    ("principal_id", .str a.principalId),
    ("channel_type", .str a.channelType),
    ("channel_id", .str a.channelId),
    ("thread_id", .str a.threadId),
    ("message_id", .str a.messageId),
    ("envelope_id", .str a.envelopeId),
    ("source_hash", .str a.sourceHash),
    ("route", .str a.route),
    ("channel_attached", .bool a.channelAttached),
    ("message_count", .nat a.messageCount),
    ("attachment_count", .nat a.attachmentCount),
    ("session_graph_hash", .str a.sessionGraphHash)])))

def toLedgerPayload (host : Host) (a : OmniRouteAuthority) (parentReceivedEventId : String) : Json := .obj [
  ("schema", .str "zaion.omni_route.v1"),
  ("authority", .str a.authority),
  ("authority_schema", .str a.authoritySchema),
  ("authority_hash", .str (a.authorityHash host)),
  ("principal_id", .str a.principalId),
  ("channel_type", .str a.channelType),
  ("channel_id", .str a.channelId),
  ("thread_id", .str a.threadId),
  ("session_id", .str a.sessionId),
  ("omni_session_id", .str a.omniSessionId),
  ("message_id", .str a.messageId),
  ("envelope_id", .str a.envelopeId),
  ("route", .str a.route),
  ("channel_attached", .bool a.channelAttached),
  ("message_count", .nat a.messageCount),
  ("attachment_count", .nat a.attachmentCount),
  ("session_graph_hash", .str a.sessionGraphHash),
  ("source_hash", .str a.sourceHash),
  ("parent_received_event_id", .str parentReceivedEventId)]

end OmniRouteAuthority

structure OmniSessionGraphMessage where
  messageId : String
  sourceChannel : String
  sourceChannelId : String
  role : String
  layer : ContextLayer
  deriving DecidableEq

structure OmniSessionGraphAttachment where
  channelType : String
  channelId : String
  deriving DecidableEq

def OmniSessionGraphMessage.toJson (m : OmniSessionGraphMessage) : Json := .obj [
  ("message_id", .str m.messageId),
  ("source_channel", .str m.sourceChannel),
  ("source_channel_id", .str m.sourceChannelId),
  ("role", .str m.role),
  ("layer", .str m.layer.name)]

def OmniSessionGraphAttachment.toJson (a : OmniSessionGraphAttachment) : Json := .obj [
  ("channel_type", .str a.channelType),
  ("channel_id", .str a.channelId)]

def graphMessage (m : UnifiedMessage) : OmniSessionGraphMessage :=
  ⟨m.messageId, m.sourceChannel.asStr, m.sourceChannelId, m.role, m.layer⟩

def graphAttachment (a : ChannelAttachment) : OmniSessionGraphAttachment := ⟨a.channelType.asStr, a.channelId⟩

/-- `cmp` of the channel types, `then` of the ids. -/
def attachmentLe (a b : OmniSessionGraphAttachment) : Bool :=
  decide (a.channelType < b.channelType ∨ (a.channelType = b.channelType ∧ a.channelId ≤ b.channelId))

def graphMessages (session : OmniSession) : List OmniSessionGraphMessage :=
  (session.messages.map graphMessage).mergeSort (fun a b => decide (a.messageId ≤ b.messageId))

def graphAttachments (session : OmniSession) : List OmniSessionGraphAttachment :=
  (session.attachments.map graphAttachment).mergeSort attachmentLe

def sessionGraphHash (host : Host) (session : OmniSession) : String :=
  host.sha256Hex (Host.utf8 (host.toText (.obj [
    ("schema", .str "zaion.omni_session_graph_hash.v1"),
    ("principal_id", .str session.principalId),
    ("active_omni_session_id", .str session.sessionId),
    ("parent_session_id", .ofOption .str session.parentSessionId),
    ("child_session_ids", .arr (session.childSessionIds.map Json.str)),
    ("messages", .arr ((graphMessages session).map OmniSessionGraphMessage.toJson)),
    ("attachments", .arr ((graphAttachments session).map OmniSessionGraphAttachment.toJson))])))

/-- The bits of the `f32` literal `0.6`. -/
def routedImportance : UInt32 := 0x3F19999A

/-- The message an envelope becomes. -/
def routedMessage (host : Host) (draw : Draw) (envelope : CanonicalEnvelope) : UnifiedMessage where
  messageId := envelope.messageId
  sourceChannel := .fromIngress envelope.source envelope.channel
  sourceChannelId := envelope.channel
  role := "user"
  content := envelope.body
  signature := none
  timestamp := (host.parseRfc3339 envelope.receivedAt).getD draw.now
  importance := routedImportance
  layer := .l1Recent

def OmniSessionManager.routeEnvelope (host : Host) (manager : OmniSessionManager) (draw : Draw)
    (envelope : CanonicalEnvelope) : OmniSessionManager × Except RuntimeError OmniRouteAuthority :=
  let channelType := ChannelType.fromIngress envelope.source envelope.channel
  let manager := manager.routeMessage draw channelType envelope.channel envelope.principal
    (routedMessage host draw envelope)
  match manager.sessions.lookup envelope.principal with
  | none => (manager, .error (.internal "OmniSessionManager authority missing routed session"))
  | some session => (manager, .ok {
      authority := "OmniSessionManager"
      authoritySchema := "zaion.omni_session_authority.v1"
      sessionId := envelope.sessionId
      omniSessionId := session.sessionId
      principalId := envelope.principal
      channelType := channelType.asStr
      channelId := envelope.channel
      threadId := envelope.thread
      messageId := envelope.messageId
      envelopeId := envelope.envelopeId
      sourceHash := envelope.sourceHash
      route := "CanonicalEnvelope -> OmniSessionManager -> principal session graph"
      channelAttached := session.attachments.any (fun a => decide (a.channelType = channelType) &&
        decide (a.channelId = envelope.channel))
      messageCount := session.messages.length
      attachmentCount := session.attachments.length
      sessionGraphHash := Omni.sessionGraphHash host session })

end Zaion.Omni
