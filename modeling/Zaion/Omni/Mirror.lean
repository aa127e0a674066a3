import Zaion.Lib.Stable
import Zaion.Omni.Replay
import Zaion.Omni.Split
import Mathlib.Data.Prod.Lex
import Mathlib.Data.String.Basic

/-! Replay beside live routing. What either leaves in a session is a function of what the
principal was heard saying: live routing keeps every message, replay the first of each id. -/
namespace Zaion.Omni

open Lib Ledger OmniSessionManager

/-- What a route says, for whom and when. -/
structure Heard where
  principal : String
  channel : ChannelKey
  messageId : String
  createdAt : String
  deriving DecidableEq, Repr

def RouteCall.heard (call : RouteCall) : Heard where
  principal := call.envelope.principal
  channel := ⟨.fromIngress call.envelope.source call.envelope.channel, call.envelope.channel⟩
  messageId := call.envelope.messageId
  createdAt := call.createdAt

def heardFrom (principal : String) (heard : List Heard) : List Heard :=
  heard.filter (fun h => decide (h.principal = principal))

def heardOn (channel : ChannelKey) (heard : List Heard) : List Heard :=
  heard.filter (fun h => decide (h.channel = channel))

/-- Who spoke last on a channel. -/
def lastOn (channel : ChannelKey) (heard : List Heard) : Option String :=
  (heardOn channel heard).getLast?.map Heard.principal

def Heard.message (h : Heard) : OmniSessionGraphMessage :=
  ⟨h.messageId, h.channel.channelType.asStr, h.channel.channelId, "user", .l1Recent⟩

def ChannelAttachment.key (a : ChannelAttachment) : ChannelKey := ⟨a.channelType, a.channelId⟩

def ChannelKey.attachment (k : ChannelKey) : OmniSessionGraphAttachment := ⟨k.channelType.asStr, k.channelId⟩

/-- A session that shows what was heard, of the messages those that `keep` keeps. -/
structure Shows (keep : List Heard → List Heard) (principal : String) (heard : List Heard) (session : OmniSession) : Prop where
  principalId : session.principalId = principal
  root : session.parentSessionId = none
  childless : session.childSessionIds = []
  messages : session.messages.map graphMessage = (keep heard).map Heard.message
  attachments : session.attachments.map ChannelAttachment.key = firstOnly id (heard.map Heard.channel)

structure Mirrors (keep : List Heard → List Heard) (manager : OmniSessionManager) (heard : List Heard) : Prop where
  silent : ∀ p, heardFrom p heard = [] → manager.sessions.lookup p = none
  shown : ∀ p, heardFrom p heard ≠ [] → ∃ s, manager.sessions.lookup p = some s ∧ Shows keep p (heardFrom p heard) s
  channels : ∀ k, manager.channelMap.lookup k = lastOn k heard

section

variable {keep : List Heard → List Heard} {manager : OmniSessionManager} {heard heard' : List Heard} {h : Heard}
  {principal : String} {session session' : OmniSession} {draw : Draw}

theorem heardFrom_concat (p : String) (heard : List Heard) (h : Heard) :
    heardFrom p (heard ++ [h]) = heardFrom p heard ++ if h.principal = p then [h] else [] := by
  by_cases same : h.principal = p <;> simp [heardFrom,same]

theorem lastOn_concat (k : ChannelKey) (heard : List Heard) (h : Heard) :
    lastOn k (heard ++ [h]) = if h.channel = k then some h.principal else lastOn k heard := by
  by_cases same : h.channel = k <;> simp [lastOn,heardOn,same]

theorem mirrors_empty (keep : List Heard → List Heard) (silent : manager.sessions = ∅) (closed : manager.channelMap = ∅) :
    Mirrors keep manager [] := by
  constructor
  · intro p _
    rw [silent,AList.lookup_empty]
  · intro p none
    exact absurd rfl none
  · intro k
    rw [closed,AList.lookup_empty]
    rfl

/-- The session a call starts from. -/
theorem Mirrors.sessionOrNew (mirrors : Mirrors keep manager heard) (fresh : keep [] = []) (draw : Draw) (p : String) :
    Shows keep p (heardFrom p heard) (manager.sessionOrNew draw p) := by
  unfold OmniSessionManager.sessionOrNew
  by_cases silent : heardFrom p heard = []
  · rw [mirrors.silent p silent,silent]
    exact ⟨rfl, rfl, rfl, by rw [fresh]; rfl, rfl⟩
  · obtain ⟨s, found, shows⟩ := mirrors.shown p silent
    rwa [found]

/-- One more route, put where the manager puts it. -/
theorem Mirrors.hear (mirrors : Mirrors keep manager heard)
    (shows : Shows keep h.principal (heardFrom h.principal heard ++ [h]) session) :
    Mirrors keep { manager with
        sessions := manager.sessions.insert h.principal session
        channelMap := manager.channelMap.insert h.channel h.principal } (heard ++ [h]) := by
  constructor
  · intro p silent
    rw [heardFrom_concat] at silent
    have other : p ≠ h.principal := by
      rintro rfl
      simp at silent
    rw [if_neg (Ne.symm other),List.append_nil] at silent
    exact (AList.lookup_insert_ne other).trans (mirrors.silent p silent)
  · intro p spoke
    by_cases same : p = h.principal
    · subst same
      refine ⟨session, AList.lookup_insert _, ?_⟩
      rwa [heardFrom_concat,if_pos rfl]
    · rw [heardFrom_concat,if_neg (Ne.symm same),List.append_nil] at spoke ⊢
      obtain ⟨s, found, shows⟩ := mirrors.shown p spoke
      exact ⟨s, (AList.lookup_insert_ne same).trans found, shows⟩
  · intro k
    rw [lastOn_concat]
    by_cases same : h.channel = k
    · rw [if_pos same,← same]
      exact AList.lookup_insert _
    · rw [if_neg same]
      exact (AList.lookup_insert_ne (Ne.symm same)).trans (mirrors.channels k)

theorem attachChannel_keys (session : OmniSession) (a : ChannelAttachment) :
    (session.attachChannel a).attachments.map ChannelAttachment.key =
      pushNew id (session.attachments.map ChannelAttachment.key) a.key := by
  have asked : session.attachments.any (fun b => decide (b.channelType = a.channelType) && decide (b.channelId = a.channelId)) =
      (session.attachments.map ChannelAttachment.key).any (fun k => decide (id k = id a.key)) := by
    rw [List.any_map]
    congr 1
    funext b
    simp [ChannelAttachment.key]
  unfold OmniSession.attachChannel pushNew
  rw [asked]
  split
  · rfl
  · simp

@[simp] theorem attachChannel_messages (session : OmniSession) (a : ChannelAttachment) :
    (session.attachChannel a).messages = session.messages := by
  unfold OmniSession.attachChannel
  split <;> rfl

/-- Attaching changes nothing else a session shows. -/
theorem attachChannel_frame (session : OmniSession) (a : ChannelAttachment) :
    (session.attachChannel a).sessionId = session.sessionId ∧ (session.attachChannel a).principalId = session.principalId ∧
    (session.attachChannel a).parentSessionId = session.parentSessionId ∧
    (session.attachChannel a).childSessionIds = session.childSessionIds := by
  unfold OmniSession.attachChannel
  split <;> exact ⟨rfl, rfl, rfl, rfl⟩

theorem Shows.attach (shows : Shows keep principal heard session) (now : DateTime) (h : Heard) :
    ((session.attachChannel ⟨h.channel.channelType, h.channel.channelId, now, now⟩).attachments.map ChannelAttachment.key) =
      firstOnly id ((heard ++ [h]).map Heard.channel) := by
  rw [attachChannel_keys,shows.attachments,List.map_append,List.map_singleton,firstOnly_concat]
  rfl

/-- A live route: the message is added as it is. -/
theorem Shows.route (shows : Shows id principal heard session) {message : UnifiedMessage}
    (text : graphMessage message = h.message) (now : DateTime) :
    Shows id principal (heard ++ [h]) ((session.attachChannel
      ⟨h.channel.channelType, h.channel.channelId, now, now⟩).addMessage message now) := by
  obtain ⟨_, principalId, root, childless⟩ :=
    attachChannel_frame session ⟨h.channel.channelType, h.channel.channelId, now, now⟩
  refine ⟨principalId.trans shows.principalId, root.trans shows.root, childless.trans shows.childless, ?_, shows.attach now h⟩
  simp [OmniSession.addMessage,shows.messages,text]

/-- A replayed route: the message is added unless its id is there. -/
theorem Shows.replay (shows : Shows (firstOnly Heard.messageId) principal heard session) {route : RoutePayload}
    (channel : h.channel = ⟨route.channelType, route.channelId⟩) (named : h.messageId = route.messageId)
    (draw : Draw) (time : DateTime) :
    Shows (firstOnly Heard.messageId) principal (heard ++ [h]) (session.replay draw time route) := by
  have same : Shows (firstOnly Heard.messageId) principal heard
      { session with sessionId := route.omniSessionId, lastActiveAt := time } :=
    ⟨shows.principalId, shows.root, shows.childless, shows.messages, shows.attachments⟩
  have attached := same.attach draw.now h
  rw [channel] at attached
  have asked : session.messages.any (fun m => decide (m.messageId = route.messageId)) =
      (firstOnly Heard.messageId heard).any (fun b => decide (b.messageId = h.messageId)) := by
    have ids := congrArg (List.map OmniSessionGraphMessage.messageId) shows.messages
    rw [List.map_map,List.map_map] at ids
    have ids := congrArg (List.any · (fun i => decide (i = route.messageId))) ids
    rw [List.any_map,List.any_map] at ids
    rw [named]
    exact ids
  obtain ⟨_, principalId, root, childless⟩ := attachChannel_frame
    { session with sessionId := route.omniSessionId, lastActiveAt := time } ⟨route.channelType, route.channelId, draw.now, draw.now⟩
  have text : graphMessage (replayedMessage time route) = h.message := by
    simp [graphMessage,replayedMessage,Heard.message,channel,named]
  have kept : firstOnly Heard.messageId (heard ++ [h]) = if (session.messages.any
      (fun m => decide (m.messageId = route.messageId))) = true then firstOnly Heard.messageId heard
      else firstOnly Heard.messageId heard ++ [h] := by
    rw [firstOnly_concat,pushNew,asked]
  unfold OmniSession.replay
  simp only [attachChannel_messages]
  by_cases known : session.messages.any (fun m => decide (m.messageId = route.messageId)) = true
  · rw [if_pos known]
    rw [if_pos known] at kept
    refine ⟨principalId.trans shows.principalId, root.trans shows.root, childless.trans shows.childless, ?_, attached⟩
    rw [attachChannel_messages,kept]
    exact shows.messages
  · rw [if_neg known]
    rw [if_neg known] at kept
    refine ⟨principalId.trans shows.principalId, root.trans shows.root, childless.trans shows.childless, ?_, attached⟩
    rw [kept]
    simp [OmniSession.addMessage,shows.messages,text]

/-! Sessions that show the same have the same graph. -/

theorem graphMessages_eq (session : OmniSession) :
    graphMessages session = sortBy OmniSessionGraphMessage.messageId (session.messages.map graphMessage) := rfl

theorem graphAttachments_eq (session : OmniSession) : graphAttachments session =
    sortBy (fun a : OmniSessionGraphAttachment => toLex (a.channelType, a.channelId)) (session.attachments.map graphAttachment) := by
  have le : attachmentLe = fun a b : OmniSessionGraphAttachment =>
      decide (toLex (a.channelType, a.channelId) ≤ toLex (b.channelType, b.channelId)) := by
    funext a b
    refine decide_eq_decide.mpr ?_
    rw [Prod.Lex.toLex_le_toLex]
  rw [graphAttachments,le]
  rfl

theorem graphAttachment_eq (a : ChannelAttachment) : graphAttachment a = a.key.attachment := rfl

theorem graphAttachments_perm (perm : (session.attachments.map ChannelAttachment.key).Perm
    (session'.attachments.map ChannelAttachment.key)) : graphAttachments session = graphAttachments session' := by
  have attached : (session.attachments.map graphAttachment).Perm (session'.attachments.map graphAttachment) := by
    have mapped := perm.map ChannelKey.attachment
    rwa [List.map_map,List.map_map] at mapped
  rw [graphAttachments_eq,graphAttachments_eq]
  refine sortBy_eq_of_perm attached ?_
  intro a _ b _ same
  cases a
  cases b
  simpa using same

/-- Replay shows what live routing does when no message id was heard twice. -/
theorem Shows.sessionGraphHash (host : Host) (live : Shows id principal heard session)
    (replayed : Shows (firstOnly Heard.messageId) principal heard' session') (perm : heard'.Perm heard)
    (distinct : (heard.map Heard.messageId).Nodup) (sessionId : session'.sessionId = session.sessionId) :
    Omni.sessionGraphHash host session' = Omni.sessionGraphHash host session := by
  have distinct' : (heard'.map Heard.messageId).Nodup := (perm.map Heard.messageId).nodup_iff.mpr distinct
  have messages : graphMessages session' = graphMessages session := by
    rw [graphMessages_eq,graphMessages_eq,live.messages,replayed.messages,firstOnly_of_nodup distinct']
    refine sortBy_eq_of_perm (perm.map Heard.message) ?_
    intro a inA b inB same
    obtain ⟨x, memX, rfl⟩ := List.mem_map.mp inA
    obtain ⟨y, memY, rfl⟩ := List.mem_map.mp inB
    rw [List.inj_on_of_nodup_map distinct' memX memY same]
  have attachments : graphAttachments session' = graphAttachments session := by
    refine graphAttachments_perm ?_
    rw [live.attachments,replayed.attachments]
    have keys : ((firstOnly id (heard'.map Heard.channel)).map id).Perm ((firstOnly id (heard.map Heard.channel)).map id) :=
      firstOnly_keys_perm (perm.map Heard.channel)
    rwa [List.map_id,List.map_id] at keys
  simp only [Omni.sessionGraphHash,messages,attachments,sessionId,live.principalId,replayed.principalId,live.root,
    replayed.root,live.childless,replayed.childless]

theorem Shows.length (shows : Shows keep principal heard session) : session.messages.length = (keep heard).length := by
  have lengths := congrArg List.length shows.messages
  rwa [List.length_map,List.length_map] at lengths

end

end Zaion.Omni
