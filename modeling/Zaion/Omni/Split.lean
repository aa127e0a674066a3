import Zaion.Lib.Table
import Zaion.Omni.Session
import Zaion.Sample

/-! Splitting and the messages of a principal. Every session knows its parent, the parent is
archived with all it had, and a child repeats a part of it before its own messages. -/
namespace Zaion.Omni

open Lib OmniSessionManager

section

variable {archived archived' : AList (fun _ : String => OmniSession)} {session session' parent : OmniSession}
  {line : List OmniSession} {routed : List UnifiedMessage}

/-- The sessions found by following `parent_session_id` through the archive, up to one that
has none. -/
inductive Lineage (archived : AList (fun _ : String => OmniSession)) : OmniSession → List OmniSession → Prop
  | root (session : OmniSession) (none : session.parentSessionId = none) : Lineage archived session [session]
  | child (session parent : OmniSession) (id : String) (line : List OmniSession)
      (link : session.parentSessionId = some id) (found : archived.lookup id = some parent)
      (up : Lineage archived parent line) : Lineage archived session (session :: line)

/-- The messages of a lineage without the inherited copies, oldest first. -/
def ownMessages : List OmniSession → List UnifiedMessage
  | [] => []
  | [session] => session.messages
  | session :: parent :: line =>
    ownMessages (parent :: line) ++ session.messages.drop (inheritedMessages parent.messages).length

/-- The last `n` of a list, all of it when it is shorter. -/
def lastOf (n : Nat) (messages : List UnifiedMessage) : List UnifiedMessage :=
  messages.drop (messages.length - min n messages.length)

/-- What the parent knows of its child, and the child of its parent. -/
structure Inherits (session parent : OmniSession) : Prop where
  listed : parent.childSessionIds = [session.sessionId]
  link : session.parentSessionId = some parent.sessionId
  messages : ∃ own, session.messages = parent.messages.filter (fun m => decide (m.layer = .l0Critical)) ++
    lastOf 20 (parent.messages.filter (fun m => decide (m.layer = .l1Recent))) ++ own
  attachments : ∃ own, session.attachments = parent.attachments ++ own

/-- A session whose past is whole: the lineage ends, no id comes twice in it, each session in
it starts with its part of the one before, and the messages beyond these are those routed. -/
structure History (archived : AList (fun _ : String => OmniSession)) (session : OmniSession) (line : List OmniSession)
    (routed : List UnifiedMessage) : Prop where
  lineage : Lineage archived session line
  acyclic : (line.map OmniSession.sessionId).Nodup
  inherits : line.IsChain Inherits
  messages : ownMessages line = routed

theorem inheritedMessages_eq (messages : List UnifiedMessage) : inheritedMessages messages =
    messages.filter (fun m => decide (m.layer = .l0Critical)) ++
      lastOf 20 (messages.filter (fun m => decide (m.layer = .l1Recent))) := by
  have tail (recent : List UnifiedMessage) : (recent.reverse.take 20).reverse = lastOf 20 recent := by
    rw [List.take_reverse,List.reverse_reverse,lastOf]
    congr 1
    omega
  rw [inheritedMessages,maxInheritedL1Messages,tail]

theorem Inherits.starts (inherits : Inherits session parent) :
    ∃ own, session.messages = inheritedMessages parent.messages ++ own := by
  obtain ⟨own, messages⟩ := inherits.messages
  exact ⟨own, by rw [inheritedMessages_eq,messages]⟩

theorem Lineage.head (lineage : Lineage archived session line) : ∃ rest, line = session :: rest := by
  cases lineage with
  | root => exact ⟨[], rfl⟩
  | child _ _ _ rest => exact ⟨rest, rfl⟩

theorem Lineage.mono (lineage : Lineage archived session line)
    (kept : ∀ id s, archived.lookup id = some s → archived'.lookup id = some s) : Lineage archived' session line := by
  induction lineage with
  | root session none => exact .root session none
  | child session parent id line link found up ih => exact .child session parent id line link (kept id parent found) ih

/-- Everything above the session itself is archived. -/
theorem Lineage.mem (lineage : Lineage archived session line) :
    ∀ s ∈ line, s = session ∨ ∃ id, archived.lookup id = some s := by
  induction lineage with
  | root session none => simp
  | child session parent id line link found up ih =>
    intro s member
    rcases List.mem_cons.mp member with same | above
    · exact .inl same
    · rcases ih s above with rfl | stored
      · exact .inr ⟨id, found⟩
      · exact .inr stored

/-- The same place in the lineage, with more said in the session. -/
structure Continues (session session' : OmniSession) (added : List UnifiedMessage) : Prop where
  sessionId : session'.sessionId = session.sessionId
  parent : session'.parentSessionId = session.parentSessionId
  messages : session'.messages = session.messages ++ added
  attachments : ∃ more, session'.attachments = session.attachments ++ more

theorem Lineage.continue_ {added : List UnifiedMessage} {rest : List OmniSession}
    (lineage : Lineage archived session (session :: rest)) (continues : Continues session session' added) :
    Lineage archived session' (session' :: rest) := by
  cases lineage with
  | root _ none => exact .root session' (continues.parent.trans none)
  | child _ parent id _ link found up => exact .child session' parent id rest (continues.parent.trans link) found up

theorem History.head (history : History archived session line routed) : ∃ rest, line = session :: rest :=
  history.lineage.head

theorem History.continues {added : List UnifiedMessage} {rest : List OmniSession}
    (history : History archived session (session :: rest) routed) (continues : Continues session session' added) :
    History archived session' (session' :: rest) (routed ++ added) := by
  obtain ⟨lineage, acyclic, inherits, messages⟩ := history
  refine ⟨lineage.continue_ continues, ?_, ?_, ?_⟩
  · simpa only [List.map_cons,continues.sessionId] using acyclic
  · cases rest with
    | nil => simp
    | cons parent rest =>
      obtain ⟨here, above⟩ := List.isChain_cons_cons.mp inherits
      refine List.isChain_cons_cons.mpr ⟨⟨?_, ?_, ?_, ?_⟩, above⟩
      · rw [here.listed,continues.sessionId]
      · rw [continues.parent,here.link]
      · obtain ⟨own, same⟩ := here.messages
        exact ⟨own ++ added, by rw [continues.messages,same,List.append_assoc _ own]⟩
      · obtain ⟨own, same⟩ := here.attachments
        obtain ⟨more, grown⟩ := continues.attachments
        exact ⟨own ++ more, by rw [grown,same,List.append_assoc]⟩
  · rw [← messages]
    cases rest with
    | nil => exact continues.messages
    | cons parent rest =>
      obtain ⟨here, _⟩ := List.isChain_cons_cons.mp inherits
      obtain ⟨own, same⟩ := here.starts
      simp only [ownMessages,continues.messages,same,List.append_assoc,List.drop_left]

theorem History.mono (history : History archived session line routed)
    (kept : ∀ id s, archived.lookup id = some s → archived'.lookup id = some s) :
    History archived' session line routed := ⟨history.lineage.mono kept, history.acyclic, history.inherits, history.messages⟩

/-- The child a split makes, and the parent as it is archived. -/
def childOf (session : OmniSession) (draw : Draw) (maxTokens : Nat) (principalId : String) : OmniSession :=
  { OmniSession.new principalId maxTokens draw with
    parentSessionId := some session.sessionId
    totalTokens := tokensOf (inheritedMessages session.messages)
    messages := inheritedMessages session.messages
    attachments := session.attachments }

def archivedAs (session : OmniSession) (draw : Draw) : OmniSession :=
  { session with childSessionIds := session.childSessionIds ++ [draw.sessionId] }

/-- A new binding leaves the old ones. -/
theorem lookup_insert_of_none {id : String} (absent : archived.lookup id = none) (s : OmniSession) :
    ∀ id' t, archived.lookup id' = some t → (archived.insert id s).lookup id' = some t := by
  intro id' t found
  have other : id' ≠ id := by
    rintro rfl
    rw [absent] at found
    cases found
  rw [AList.lookup_insert_ne other,found]

theorem History.split {draw : Draw} {maxTokens : Nat} {principalId : String} {rest : List OmniSession}
    (history : History archived session (session :: rest) routed)
    (absent : archived.lookup session.sessionId = none) (childless : session.childSessionIds = [])
    (fresh : ∀ s ∈ session :: rest, s.sessionId ≠ draw.sessionId) :
    History (archived.insert session.sessionId (archivedAs session draw)) (childOf session draw maxTokens principalId)
      (childOf session draw maxTokens principalId :: archivedAs session draw :: rest) routed := by
  have continues : Continues session (archivedAs session draw) [] := ⟨rfl, rfl, (List.append_nil _).symm, [], (List.append_nil _).symm⟩
  obtain ⟨lineage, acyclic, inherits, messages⟩ :=
    (history.continues continues).mono (lookup_insert_of_none absent (archivedAs session draw))
  refine ⟨.child _ _ session.sessionId _ rfl (AList.lookup_insert _) lineage, ?_, ?_, ?_⟩
  · refine List.nodup_cons.mpr ⟨?_, acyclic⟩
    intro member
    obtain ⟨s, listed, same⟩ := List.mem_map.mp member
    rcases List.mem_cons.mp listed with rfl | above
    · exact fresh session List.mem_cons_self same
    · exact fresh s (List.mem_cons_of_mem _ above) same
  · refine List.isChain_cons_cons.mpr ⟨⟨?_, rfl, ⟨[], ?_⟩, ⟨[], (List.append_nil _).symm⟩⟩, inherits⟩
    · simp [archivedAs,childless,childOf,OmniSession.new]
    · rw [List.append_nil]
      exact inheritedMessages_eq session.messages
  · rw [ownMessages,messages,List.append_nil]
    simp [childOf,archivedAs]

end

/-! The manager over a run. -/

inductive OmniOp where
  | routeMessage (channelType : ChannelType) (channelId principalId : String) (message : UnifiedMessage)
  | routeEnvelope (envelope : CanonicalEnvelope)
  | splitSession (principalId : String)

def OmniOp.apply (host : Host) (manager : OmniSessionManager) (draw : Draw) : OmniOp → OmniSessionManager
  | .routeMessage channelType channelId principalId message =>
    manager.routeMessage draw channelType channelId principalId message
  | .routeEnvelope envelope => (manager.routeEnvelope host draw envelope).1
  | .splitSession principalId => (manager.splitSession draw principalId).1

/-- The message an operation routes to a principal. -/
def OmniOp.routedTo (host : Host) (draw : Draw) (principal : String) : OmniOp → List UnifiedMessage
  | .routeMessage _ _ principalId message => if principalId = principal then [message] else []
  | .routeEnvelope envelope => if envelope.principal = principal then [routedMessage host draw envelope] else []
  | .splitSession _ => []

def runOps (host : Host) (maxTokens : Nat) (ops : List (Draw × OmniOp)) : OmniSessionManager :=
  ops.foldl (fun manager op => op.2.apply host manager op.1) (.new maxTokens)

/-- All messages ever routed to a principal. -/
def allRouted (host : Host) (ops : List (Draw × OmniOp)) (principal : String) : List UnifiedMessage :=
  ops.flatMap (fun op => op.2.routedTo host op.1 principal)

def Present (manager : OmniSessionManager) (session : OmniSession) : Prop :=
  (∃ principal, manager.sessions.lookup principal = some session) ∨
    ∃ id, manager.archivedSessions.lookup id = some session

structure Whole (manager : OmniSessionManager) (used : List String) (routed : String → List UnifiedMessage) : Prop where
  active : ∀ principal session, manager.sessions.lookup principal = some session → session.sessionId ∈ used ∧
    manager.archivedSessions.lookup session.sessionId = none ∧ session.childSessionIds = []
  apart : ∀ p q a b, manager.sessions.lookup p = some a → manager.sessions.lookup q = some b →
    a.sessionId = b.sessionId → p = q
  archived : ∀ id session, manager.archivedSessions.lookup id = some session → session.sessionId = id ∧ id ∈ used
  history : ∀ principal session, manager.sessions.lookup principal = some session →
    ∃ line, History manager.archivedSessions session line (routed principal)
  unheard : ∀ principal, manager.sessions.lookup principal = none → routed principal = []
  tokens : ∀ session, Present manager session → session.totalTokens = tokensOf session.messages
  listed : ∀ id session, manager.archivedSessions.lookup id = some session → ∃ child, Present manager child ∧
    child.parentSessionId = some id ∧ session.childSessionIds = [child.sessionId]

section

variable {manager manager' : OmniSessionManager} {used : List String} {routed : String → List UnifiedMessage}
  {principal : String} {session session' : OmniSession} {draw : Draw}

theorem tokensOf_append (messages : List UnifiedMessage) (message : UnifiedMessage) :
    tokensOf (messages ++ [message]) = tokensOf messages + estimateTokens message.content := by
  simp [tokensOf]

theorem whole_new (maxTokens : Nat) : Whole (.new maxTokens) [] (fun _ => []) := by
  constructor <;> simp [OmniSessionManager.new,Present]

/-- Another id drawn, nothing else. -/
theorem Whole.drawn (whole : Whole manager used routed) (id : String) : Whole manager (used ++ [id]) routed :=
  { whole with
    active := fun p s found => by
      obtain ⟨known, absent, childless⟩ := whole.active p s found
      exact ⟨List.mem_append_left _ known, absent, childless⟩
    archived := fun id' s found => by
      obtain ⟨same, known⟩ := whole.archived id' s found
      exact ⟨same, List.mem_append_left _ known⟩ }

/-- Ids that were never drawn are not archived. -/
theorem Whole.not_archived (whole : Whole manager used routed) {id : String} (fresh : id ∉ used) :
    manager.archivedSessions.lookup id = none := by
  cases found : manager.archivedSessions.lookup id with
  | none => rfl
  | some s => exact absurd (whole.archived id s found).2 fresh

/-- A session for a principal that has none. -/
theorem Whole.open_ (whole : Whole manager used routed) (absent : manager.sessions.lookup principal = none)
    (fresh : draw.sessionId ∉ used) (maxTokens : Nat) :
    Whole { manager with sessions := manager.sessions.insert principal (.new principal maxTokens draw) }
      (used ++ [draw.sessionId]) routed := by
  have old := whole.drawn draw.sessionId
  have unused (p : String) (s : OmniSession) (found : manager.sessions.lookup p = some s) :
      s.sessionId ≠ draw.sessionId := fun same => fresh (same ▸ (whole.active p s found).1)
  have present (s : OmniSession) (here : Present manager s) : Present { manager with
      sessions := manager.sessions.insert principal (.new principal maxTokens draw) } s := by
    rcases here with ⟨p, found⟩ | stored
    · refine .inl ⟨p, ?_⟩
      have other : p ≠ principal := by
        rintro rfl
        rw [absent] at found
        cases found
      exact (AList.lookup_insert_ne other).trans found
    · exact .inr stored
  constructor
  · intro p s found
    rcases Table.lookup_insert_cases found with ⟨rfl, rfl⟩ | ⟨_, found⟩
    · exact ⟨by simp [OmniSession.new], whole.not_archived fresh, rfl⟩
    · exact old.active p s found
  · intro p q a b first second same
    rcases Table.lookup_insert_cases first with ⟨rfl, rfl⟩ | ⟨_, left⟩
    · rcases Table.lookup_insert_cases second with ⟨rfl, _⟩ | ⟨_, right⟩
      · rfl
      · exact absurd same.symm (unused q b right)
    · rcases Table.lookup_insert_cases second with ⟨rfl, rfl⟩ | ⟨_, right⟩
      · exact absurd same (unused p a left)
      · exact whole.apart p q a b left right same
  · exact old.archived
  · intro p s found
    rcases Table.lookup_insert_cases found with ⟨rfl, rfl⟩ | ⟨_, found⟩
    · refine ⟨[.new p maxTokens draw], .root _ rfl, by simp, by simp, ?_⟩
      exact (whole.unheard p absent).symm
    · exact whole.history p s found
  · intro p missing
    by_cases same : p = principal
    · subst same
      exact whole.unheard p absent
    · exact whole.unheard p ((AList.lookup_insert_ne same).symm.trans missing)
  · rintro s (⟨p, found⟩ | stored)
    · rcases Table.lookup_insert_cases found with ⟨rfl, rfl⟩ | ⟨_, found⟩
      · rfl
      · exact whole.tokens s (.inl ⟨p, found⟩)
    · exact whole.tokens s (.inr stored)
  · intro id s found
    obtain ⟨child, here, link, listed⟩ := whole.listed id s found
    exact ⟨child, present child here, link, listed⟩

/-- More said in the session of a principal. -/
theorem Whole.continues {added : List UnifiedMessage} (whole : Whole manager used routed)
    (here : manager.sessions.lookup principal = some session) (continues : Continues session session' added)
    (children : session'.childSessionIds = session.childSessionIds)
    (tokens : session'.totalTokens = tokensOf session'.messages) :
    Whole { manager with sessions := manager.sessions.insert principal session' } used
      (fun p => routed p ++ if principal = p then added else []) := by
  constructor
  · intro p s found
    rcases Table.lookup_insert_cases found with ⟨rfl, rfl⟩ | ⟨_, found⟩
    · rw [continues.sessionId,children]
      exact whole.active p session here
    · exact whole.active p s found
  · intro p q a b first second same
    rcases Table.lookup_insert_cases first with ⟨rfl, rfl⟩ | ⟨_, left⟩
    · rcases Table.lookup_insert_cases second with ⟨rfl, _⟩ | ⟨_, right⟩
      · rfl
      · exact whole.apart p q session b here right (continues.sessionId.symm.trans same)
    · rcases Table.lookup_insert_cases second with ⟨rfl, rfl⟩ | ⟨_, right⟩
      · exact whole.apart p q a session left here (same.trans continues.sessionId)
      · exact whole.apart p q a b left right same
  · exact whole.archived
  · intro p s found
    rcases Table.lookup_insert_cases found with ⟨rfl, rfl⟩ | ⟨other, found⟩
    · obtain ⟨line, history⟩ := whole.history p session here
      obtain ⟨rest, rfl⟩ := history.head
      exact ⟨_, by simpa using history.continues continues⟩
    · simpa [Ne.symm other] using whole.history p s found
  · intro p missing
    have other : principal ≠ p := by
      rintro rfl
      rw [AList.lookup_insert] at missing
      cases missing
    simpa [other] using whole.unheard p ((AList.lookup_insert_ne (Ne.symm other)).symm.trans missing)
  · rintro s (⟨p, found⟩ | stored)
    · rcases Table.lookup_insert_cases found with ⟨rfl, rfl⟩ | ⟨_, found⟩
      · exact tokens
      · exact whole.tokens s (.inl ⟨p, found⟩)
    · exact whole.tokens s (.inr stored)
  · intro id s found
    obtain ⟨child, ⟨p, known⟩ | stored, link, listed⟩ := whole.listed id s found
    · by_cases same : p = principal
      · subst same
        obtain rfl := Option.some.inj (here.symm.trans known)
        exact ⟨session', .inl ⟨p, AList.lookup_insert _⟩, continues.parent.trans link,
          by rw [listed,continues.sessionId]⟩
      · exact ⟨child, .inl ⟨p, (AList.lookup_insert_ne same).trans known⟩, link, listed⟩
    · exact ⟨child, .inr stored, link, listed⟩

theorem Whole.split (whole : Whole manager used routed) (here : manager.sessions.lookup principal = some session)
    (fresh : draw.sessionId ∉ used) (maxTokens : Nat) :
    Whole { manager with
        archivedSessions := manager.archivedSessions.insert session.sessionId (archivedAs session draw)
        sessions := (manager.sessions.erase principal).insert principal (childOf session draw maxTokens principal) }
      (used ++ [draw.sessionId]) routed := by
  obtain ⟨known, absent, childless⟩ := whole.active principal session here
  have kept := lookup_insert_of_none absent (archivedAs session draw)
  have others (p : String) (s : OmniSession) (other : p ≠ principal)
      (found : (manager.sessions.erase principal).lookup p = some s) : manager.sessions.lookup p = some s := by
    rwa [AList.lookup_erase_ne other] at found
  constructor
  · intro p s found
    rcases Table.lookup_insert_cases found with ⟨rfl, rfl⟩ | ⟨other, found⟩
    · refine ⟨List.mem_append_right _ (List.mem_singleton_self _), ?_, rfl⟩
      have apart : draw.sessionId ≠ session.sessionId := fun same => fresh (same ▸ known)
      exact (AList.lookup_insert_ne apart).trans (whole.not_archived fresh)
    · obtain ⟨mine, missing, none⟩ := whole.active p s (others p s other found)
      have apart : s.sessionId ≠ session.sessionId :=
        fun same => other (whole.apart p principal s session (others p s other found) here same)
      exact ⟨List.mem_append_left _ mine, (AList.lookup_insert_ne apart).trans missing, none⟩
  · intro p q a b first second same
    rcases Table.lookup_insert_cases first with ⟨rfl, rfl⟩ | ⟨left, before⟩
    · rcases Table.lookup_insert_cases second with ⟨rfl, _⟩ | ⟨right, after⟩
      · rfl
      · have same : draw.sessionId = b.sessionId := same
        rw [same] at fresh
        exact absurd (whole.active q b (others q b right after)).1 fresh
    · rcases Table.lookup_insert_cases second with ⟨rfl, rfl⟩ | ⟨right, after⟩
      · have same : a.sessionId = draw.sessionId := same
        rw [← same] at fresh
        exact absurd (whole.active p a (others p a left before)).1 fresh
      · exact whole.apart p q a b (others p a left before) (others q b right after) same
  · intro id s found
    rcases Table.lookup_insert_cases found with ⟨rfl, rfl⟩ | ⟨_, found⟩
    · exact ⟨rfl, List.mem_append_left _ known⟩
    · exact ⟨(whole.archived id s found).1, List.mem_append_left _ (whole.archived id s found).2⟩
  · intro p s found
    rcases Table.lookup_insert_cases found with ⟨rfl, rfl⟩ | ⟨other, found⟩
    · obtain ⟨line, history⟩ := whole.history p session here
      obtain ⟨rest, rfl⟩ := history.head
      refine ⟨_, history.split absent childless ?_⟩
      intro s member same
      rcases history.lineage.mem s member with rfl | ⟨id, stored⟩
      · exact fresh (same ▸ known)
      · exact fresh (same ▸ (whole.archived id s stored).1 ▸ (whole.archived id s stored).2)
    · obtain ⟨line, history⟩ := whole.history p s (others p s other found)
      exact ⟨line, history.mono kept⟩
  · intro p missing
    have other : p ≠ principal := by
      rintro rfl
      rw [AList.lookup_insert] at missing
      cases missing
    exact whole.unheard p ((AList.lookup_erase_ne other).symm.trans ((AList.lookup_insert_ne other).symm.trans missing))
  · rintro s (⟨p, found⟩ | ⟨id, found⟩)
    · rcases Table.lookup_insert_cases found with ⟨rfl, rfl⟩ | ⟨other, found⟩
      · rfl
      · exact whole.tokens s (.inl ⟨p, others p s other found⟩)
    · rcases Table.lookup_insert_cases found with ⟨rfl, rfl⟩ | ⟨_, found⟩
      · exact whole.tokens session (.inl ⟨principal, here⟩)
      · exact whole.tokens s (.inr ⟨id, found⟩)
  · intro id s found
    rcases Table.lookup_insert_cases found with ⟨rfl, rfl⟩ | ⟨_, found⟩
    · refine ⟨childOf session draw maxTokens principal, .inl ⟨principal, AList.lookup_insert _⟩, rfl, ?_⟩
      simp [archivedAs,childless,childOf,OmniSession.new]
    · obtain ⟨child, ⟨p, active⟩ | ⟨id', stored⟩, link, listed⟩ := whole.listed id s found
      · by_cases same : p = principal
        · subst same
          obtain rfl := Option.some.inj (here.symm.trans active)
          exact ⟨archivedAs session draw, .inr ⟨session.sessionId, AList.lookup_insert _⟩, link, listed⟩
        · exact ⟨child, .inl ⟨p, (AList.lookup_insert_ne same).trans ((AList.lookup_erase_ne same).trans active)⟩,
            link, listed⟩
      · exact ⟨child, .inr ⟨id', kept id' child stored⟩, link, listed⟩

theorem routed_continues (session : OmniSession) (attachment : ChannelAttachment) (message : UnifiedMessage)
    (now : DateTime) : Continues session ((session.attachChannel attachment).addMessage message now) [message] := by
  unfold OmniSession.attachChannel
  split
  · exact ⟨rfl, rfl, rfl, [], (List.append_nil _).symm⟩
  · exact ⟨rfl, rfl, rfl, [attachment], rfl⟩

theorem routed_tokens {session : OmniSession} (tokens : session.totalTokens = tokensOf session.messages)
    (attachment : ChannelAttachment) (message : UnifiedMessage) (now : DateTime) :
    ((session.attachChannel attachment).addMessage message now).totalTokens =
      tokensOf ((session.attachChannel attachment).addMessage message now).messages := by
  have kept : (session.attachChannel attachment).totalTokens = tokensOf (session.attachChannel attachment).messages := by
    unfold OmniSession.attachChannel
    split <;> exact tokens
  simp only [OmniSession.addMessage,tokensOf_append,kept]

theorem routed_children (session : OmniSession) (attachment : ChannelAttachment) (message : UnifiedMessage)
    (now : DateTime) :
    ((session.attachChannel attachment).addMessage message now).childSessionIds = session.childSessionIds := by
  unfold OmniSession.attachChannel
  split <;> rfl

theorem Whole.routeMessage (whole : Whole manager used routed) (fresh : draw.sessionId ∉ used)
    (channelType : ChannelType) (channelId : String) (message : UnifiedMessage) :
    Whole (manager.routeMessage draw channelType channelId principal message) (used ++ [draw.sessionId])
      (fun p => routed p ++ if principal = p then [message] else []) := by
  have routes (opened : OmniSessionManager) (whole : Whole opened (used ++ [draw.sessionId]) routed)
      (session : OmniSession) (here : opened.sessions.lookup principal = some session) :
      Whole { opened with sessions := opened.sessions.insert principal ((session.attachChannel
        ⟨channelType, channelId, draw.now, draw.now⟩).addMessage message draw.now) } (used ++ [draw.sessionId])
          (fun p => routed p ++ if principal = p then [message] else []) :=
    whole.continues here (routed_continues ..) (routed_children ..)
      (routed_tokens (whole.tokens session (.inl ⟨principal, here⟩)) ..)
  unfold OmniSessionManager.routeMessage sessionOrNew
  cases here : manager.sessions.lookup principal with
  | some session =>
    obtain ⟨active, apart, archived, history, unheard, tokens, listed⟩ :=
      routes manager (whole.drawn draw.sessionId) session here
    exact ⟨active, apart, archived, history, unheard, tokens, listed⟩
  | none =>
    obtain ⟨active, apart, archived, history, unheard, tokens, listed⟩ :=
      routes _ (whole.open_ here fresh manager.defaultMaxTokens) _ (AList.lookup_insert _)
    simp only [AList.insert_insert] at active apart history unheard tokens listed
    exact ⟨active, apart, archived, history, unheard, tokens, listed⟩

theorem routeEnvelope_manager (host : Host) (manager : OmniSessionManager) (draw : Draw) (envelope : CanonicalEnvelope) :
    (manager.routeEnvelope host draw envelope).1 = manager.routeMessage draw
      (.fromIngress envelope.source envelope.channel) envelope.channel envelope.principal
      (routedMessage host draw envelope) := by
  simp only [OmniSessionManager.routeEnvelope]
  split <;> rfl

theorem Whole.apply {host : Host} (whole : Whole manager used routed) (fresh : draw.sessionId ∉ used) (op : OmniOp) :
    Whole (op.apply host manager draw) (used ++ [draw.sessionId]) (fun p => routed p ++ op.routedTo host draw p) := by
  cases op with
  | routeMessage channelType channelId principalId message => exact whole.routeMessage fresh channelType channelId message
  | routeEnvelope envelope =>
    rw [OmniOp.apply,routeEnvelope_manager]
    exact whole.routeMessage fresh _ _ _
  | splitSession principalId =>
    simp only [OmniOp.apply,OmniOp.routedTo,OmniSessionManager.splitSession,List.append_nil]
    cases here : manager.sessions.lookup principalId with
    | none => exact whole.drawn draw.sessionId
    | some session => exact whole.split here fresh manager.defaultMaxTokens

theorem whole_run (host : Host) (maxTokens : Nat) {ops : List (Draw × OmniOp)}
    (fresh : (ops.map (fun op => op.1.sessionId)).Nodup) :
    Whole (runOps host maxTokens ops) (ops.map (fun op => op.1.sessionId)) (allRouted host ops) := by
  induction ops using List.reverseRecOn with
  | nil => exact whole_new maxTokens
  | append_singleton ops op ih =>
    rw [List.map_append,List.nodup_append] at fresh
    have unused : op.1.sessionId ∉ ops.map (fun op => op.1.sessionId) :=
      fun member => fresh.2.2 _ member _ (List.mem_singleton_self _) rfl
    have next : Whole (op.2.apply host _ op.1) _ _ := (ih fresh.1).apply unused op.2
    have routed : allRouted host (ops ++ [op]) = fun p => allRouted host ops p ++ op.2.routedTo host op.1 p := by
      funext p
      simp [allRouted]
    rw [routed,List.map_append,runOps,List.foldl_append]
    exact next

end

/-- Over any run with fresh session ids, splitting loses no message: each principal's active
session has a finite past without repeated ids, its messages beyond the inherited copies
are all those routed to the principal, once and in order, every archived session lists its
child, and every session counts the tokens of its messages. -/
theorem split_loses_nothing (host : Host) (maxTokens : Nat) {ops : List (Draw × OmniOp)}
    (fresh : (ops.map (fun op => op.1.sessionId)).Nodup) :
    (∀ principal session, (runOps host maxTokens ops).sessions.lookup principal = some session →
      ∃ line, History (runOps host maxTokens ops).archivedSessions session line (allRouted host ops principal)) ∧
    (∀ principal, (runOps host maxTokens ops).sessions.lookup principal = none → allRouted host ops principal = []) ∧
    (∀ id session, (runOps host maxTokens ops).archivedSessions.lookup id = some session → session.sessionId = id ∧
      ∃ child, Present (runOps host maxTokens ops) child ∧ child.parentSessionId = some id ∧
        session.childSessionIds = [child.sessionId]) ∧
    (∀ session, Present (runOps host maxTokens ops) session → session.totalTokens = tokensOf session.messages) := by
  have whole := whole_run host maxTokens fresh
  refine ⟨whole.history, whole.unheard, ?_, whole.tokens⟩
  intro id session found
  exact ⟨(whole.archived id session found).1, whole.listed id session found⟩

def sampleMessage (id : String) (layer : ContextLayer) : UnifiedMessage :=
  ⟨id, .cli, "terminal", "user", "four letters or more", none, sampleNow, routedImportance, layer⟩

/-- A rule and a question, a split, and a second question. -/
def sampleSplit : List (Draw × OmniOp) := [
  (⟨"s-1", sampleNow⟩, .routeMessage .cli "terminal" "zaion1ab" (sampleMessage "m-1" .l0Critical)),
  (⟨"s-2", sampleNow⟩, .routeMessage .cli "terminal" "zaion1ab" (sampleMessage "m-2" .l1Recent)),
  (⟨"s-3", sampleNow⟩, .splitSession "zaion1ab"),
  (⟨"s-4", sampleNow⟩, .routeMessage .cli "terminal" "zaion1ab" (sampleMessage "m-3" .l1Recent))]

theorem sampleSplit_loses_nothing : ∃ session line,
    (runOps sampleHost 8 sampleSplit).sessions.lookup "zaion1ab" = some session ∧
    History (runOps sampleHost 8 sampleSplit).archivedSessions session line
      [sampleMessage "m-1" .l0Critical, sampleMessage "m-2" .l1Recent, sampleMessage "m-3" .l1Recent] := by
  have fresh : (sampleSplit.map (fun op => op.1.sessionId)).Nodup := by decide
  obtain ⟨histories, unheard, _⟩ := split_loses_nothing sampleHost 8 fresh
  have routed : allRouted sampleHost sampleSplit "zaion1ab" =
      [sampleMessage "m-1" .l0Critical, sampleMessage "m-2" .l1Recent, sampleMessage "m-3" .l1Recent] := by
    simp [allRouted,sampleSplit,OmniOp.routedTo]
  cases found : (runOps sampleHost 8 sampleSplit).sessions.lookup "zaion1ab" with
  | none =>
    have none := unheard "zaion1ab" found
    rw [routed] at none
    cases none
  | some session =>
    obtain ⟨line, history⟩ := histories "zaion1ab" session found
    exact ⟨session, line, rfl, routed ▸ history⟩

end Zaion.Omni
