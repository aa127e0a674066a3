import Zaion.Omni.Recovery

/-! Replay asks a route for its `authority_hash` and never computes it again. Which replays
succeed, and which of them rest on unaltered routes alone. -/
namespace Zaion.Omni

open Lib Ledger OmniSessionManager

/-- The sixteen fields of a payload that `authority_hash` covers. -/
def authorityIn (payload : Json) : Option OmniRouteAuthority := do
  let authority ← textOf payload "authority"
  let authoritySchema ← textOf payload "authority_schema"
  let sessionId ← textOf payload "session_id"
  let omniSessionId ← textOf payload "omni_session_id"
  let principalId ← textOf payload "principal_id"
  let channelType ← textOf payload "channel_type"
  let channelId ← textOf payload "channel_id"
  let threadId ← textOf payload "thread_id"
  let messageId ← textOf payload "message_id"
  let envelopeId ← textOf payload "envelope_id"
  let sourceHash ← textOf payload "source_hash"
  let route ← textOf payload "route"
  let channelAttached ← (payload.get "channel_attached").bind Json.asBool
  let messageCount ← (payload.get "message_count").bind Json.asU64
  let attachmentCount ← (payload.get "attachment_count").bind Json.asU64
  let sessionGraphHash ← textOf payload "session_graph_hash"
  some ⟨authority, authoritySchema, sessionId, omniSessionId, principalId, channelType, channelId, threadId,
    messageId, envelopeId, sourceHash, route, channelAttached, messageCount, attachmentCount, sessionGraphHash⟩

/-- The recorded hash is the one of the payload's own fields. -/
def intact (host : Host) (event : LedgerEvent) : Bool :=
  (authorityIn event.payload).any fun a => decide (textOf event.payload "authority_hash" = some (a.authorityHash host))

/-- Every field the loop asks for is there. -/
def readable (event : LedgerEvent) : Bool := (readRoute event.payload).isOk

/-- The passes of the loop over the events that can be read. -/
def passAll (host : Host) (draws : Nat → Draw) (state : Replaying) (events : List LedgerEvent) : Replaying :=
  events.foldl (fun state event =>
    match readRoute event.payload with
    | .ok route => state.pass host draws event route
    | .error _ => state) state

/-- The variables of the loop before its first pass: the maps are cleared. -/
def OmniSessionManager.startReplay (manager : OmniSessionManager) : Replaying :=
  ⟨{ manager with sessions := ∅, archivedSessions := ∅, channelMap := ∅ }, 0, none, none, "", ""⟩

/-- A payload with another hash recorded. -/
def withHash (hash : String) : Json → Json
  | .obj fields => .obj (fields.map fun field => if field.1 = "authority_hash" then (field.1, .str hash) else field)
  | payload => payload

section

variable {host : Host} {draws : Nat → Draw} {state : Replaying} {event : LedgerEvent} {route : RoutePayload}

theorem readable_iff : readable event = true ↔ ∃ route, readRoute event.payload = .ok route := by
  unfold readable
  cases readRoute event.payload <;> simp [Except.isOk,Except.toBool]

theorem passAll_snoc (state : Replaying) (events : List LedgerEvent) (read : readRoute event.payload = .ok route) :
    passAll host draws state (events ++ [event]) = (passAll host draws state events).pass host draws event route := by
  simp [passAll,read]

/-- The loop makes its passes up to the first event it cannot read. -/
theorem replayLoop_fst (host : Host) (draws : Nat → Draw) (state : Replaying) (events : List LedgerEvent) :
    (replayLoop host draws state events).1 = passAll host draws state (events.takeWhile readable) := by
  induction events generalizing state with
  | nil => rfl
  | cons event rest ih =>
    rw [replayLoop]
    cases read : readRoute event.payload with
    | error error =>
      have unread : readable event = false := by rw [readable,read]; rfl
      rw [List.takeWhile_cons_of_neg (by simp [unread])]
      rfl
    | ok route =>
      rw [List.takeWhile_cons_of_pos (readable_iff.mpr ⟨route, read⟩)]
      simpa [passAll,read] using ih (state.pass host draws event route)

theorem replayLoop_none_iff (host : Host) (draws : Nat → Draw) (state : Replaying) (events : List LedgerEvent) :
    (replayLoop host draws state events).2 = none ↔ ∀ event ∈ events, readable event = true := by
  induction events generalizing state with
  | nil => simp [replayLoop]
  | cons event rest ih =>
    rw [replayLoop,List.forall_mem_cons,readable]
    cases read : readRoute event.payload with
    | error error => simp [Except.isOk,Except.toBool]
    | ok route => simpa [Except.isOk,Except.toBool] using ih _

/-- The principal of the last pass has a session. -/
theorem passAll_active (host : Host) (draws : Nat → Draw) (state : Replaying) {events : List LedgerEvent}
    (some_ : events ≠ []) (read : ∀ event ∈ events, readable event = true) : ∃ session,
      (passAll host draws state events).manager.sessions.lookup (passAll host draws state events).activePrincipal =
        some session := by
  obtain ⟨front, last, rfl⟩ := List.eq_nil_or_concat events |>.resolve_left some_
  rw [List.concat_eq_append] at *
  obtain ⟨route, here⟩ := readable_iff.mp (read last (by simp))
  rw [passAll_snoc state front here]
  exact ⟨_, AList.lookup_insert _⟩

/-- A replay with a route succeeds when it can read them all, and fails after the ones it could read. -/
theorem replay_cases (host : Host) (manager : OmniSessionManager) (draws : Nat → Draw) {events : List LedgerEvent}
    {principalFilter : Option String} (some_ : routesToReplay events principalFilter ≠ []) :
    (∃ replay, replaySignedRouteEvents host manager draws events principalFilter =
        ((passAll host draws manager.startReplay (routesToReplay events principalFilter)).manager, .ok replay) ∧
      (∀ event ∈ routesToReplay events principalFilter, readable event = true) ∧
      replay.verifiedRouteEventCount = (routesToReplay events principalFilter).length) ∨
    ∃ error, replaySignedRouteEvents host manager draws events principalFilter =
        ((passAll host draws manager.startReplay ((routesToReplay events principalFilter).takeWhile readable)).manager,
          .error error) ∧
      ∃ event ∈ routesToReplay events principalFilter, readable event = false := by
  have passes := replayLoop_fst host draws manager.startReplay (routesToReplay events principalFilter)
  have reads := replayLoop_none_iff host draws manager.startReplay (routesToReplay events principalFilter)
  have empty : (routesToReplay events principalFilter).isEmpty = false := by simpa using some_
  simp only [replaySignedRouteEvents,empty,Bool.false_eq_true,if_false]
  cases ran : replayLoop host draws manager.startReplay (routesToReplay events principalFilter) with
  | mk state failed =>
    have ran' := ran
    rw [startReplay] at ran'
    rw [ran']
    rw [ran] at passes reads
    cases failed with
    | some error =>
      refine .inr ⟨error, by rw [← passes], ?_⟩
      by_contra all
      have every : ∀ event ∈ routesToReplay events principalFilter, readable event = true := by simpa using all
      exact absurd (reads.mpr every) (by simp)
    | none =>
      have every := reads.mp rfl
      rw [List.takeWhile_eq_self_iff.mpr every] at passes
      obtain ⟨session, active⟩ := passAll_active host draws manager.startReplay some_ every
      dsimp only at passes
      subst passes
      refine .inl ⟨_, by dsimp only; rw [active], every, ?_⟩
      rfl

theorem mem_routesToReplay {events : List LedgerEvent} {principalFilter : Option String} :
    event ∈ routesToReplay events principalFilter ↔ event ∈ events ∧ isSignedRoute principalFilter event = true := by
  rw [routesToReplay,List.mem_mergeSort,List.mem_filter]

/-- The replay counts unaltered routes only, and altered events in the list make no difference to it. -/
structure RestsOnIntact (host : Host) (manager : OmniSessionManager) (draws : Nat → Draw) (events : List LedgerEvent)
    (principalFilter : Option String) (replay : OmniSessionGraphReplay) : Prop where
  counted : replay.verifiedRouteEventCount =
    (events.filter fun event => isSignedRoute principalFilter event && intact host event).length
  unaffected : replaySignedRouteEvents host manager draws (events.filter (intact host)) principalFilter =
    replaySignedRouteEvents host manager draws events principalFilter

/-- Every route the replay accepts is unaltered. -/
def AllIntact (host : Host) (events : List LedgerEvent) (principalFilter : Option String) : Prop :=
  ∀ event ∈ events, isSignedRoute principalFilter event = true → intact host event = true

theorem routesToReplay_intact {events : List LedgerEvent} {principalFilter : Option String}
    (all : AllIntact host events principalFilter) :
    routesToReplay (events.filter (intact host)) principalFilter = routesToReplay events principalFilter := by
  unfold routesToReplay
  rw [List.filter_filter]
  congr 1
  apply List.filter_congr
  intro event member
  cases accepted : isSignedRoute principalFilter event with
  | false => rfl
  | true => rw [all event member accepted]; rfl

theorem filter_intact {events : List LedgerEvent} {principalFilter : Option String} :
    (events.filter fun event => isSignedRoute principalFilter event && intact host event) =
      (events.filter (isSignedRoute principalFilter)).filter (intact host) := by
  rw [List.filter_filter]
  exact List.filter_congr fun event _ => Bool.and_comm _ _

theorem routesToReplay_length (events : List LedgerEvent) (principalFilter : Option String) :
    (routesToReplay events principalFilter).length = (events.filter (isSignedRoute principalFilter)).length :=
  List.length_mergeSort _

theorem restsOnIntact_iff {manager : OmniSessionManager} {events : List LedgerEvent} {principalFilter : Option String}
    {replay : OmniSessionGraphReplay}
    (counted : replay.verifiedRouteEventCount = (routesToReplay events principalFilter).length) :
    RestsOnIntact host manager draws events principalFilter replay ↔ AllIntact host events principalFilter := by
  rw [routesToReplay_length] at counted
  constructor
  · intro rests event member accepted
    have count := rests.counted
    rw [counted,filter_intact] at count
    have every := List.length_filter_eq_length_iff.mp count.symm
    exact every event (List.mem_filter.mpr ⟨member, accepted⟩)
  · intro all
    have every : ∀ event ∈ events.filter (isSignedRoute principalFilter), intact host event = true := by
      intro event member
      exact all event (List.mem_filter.mp member).1 (List.mem_filter.mp member).2
    refine ⟨?_, ?_⟩
    · rw [counted,filter_intact,List.filter_eq_self.mpr every]
    · unfold replaySignedRouteEvents
      rw [routesToReplay_intact all]

/-- A replay rests on unaltered routes alone exactly when it accepts no other, or fails because a
route it accepts lacks a field. -/
theorem replay_intact_iff (host : Host) (manager : OmniSessionManager) (draws : Nat → Draw) (events : List LedgerEvent)
    (principalFilter : Option String) :
    (∀ replay, (replaySignedRouteEvents host manager draws events principalFilter).2 = .ok replay →
      RestsOnIntact host manager draws events principalFilter replay) ↔
    AllIntact host events principalFilter ∨
      ∃ event ∈ events, isSignedRoute principalFilter event = true ∧ readable event = false := by
  by_cases some_ : routesToReplay events principalFilter = []
  · have none_ (event : LedgerEvent) (member : event ∈ events) : ¬ isSignedRoute principalFilter event = true := by
      intro accepted
      have inside := mem_routesToReplay.mpr ⟨member, accepted⟩
      rw [some_] at inside
      cases inside
    constructor
    · intro _
      exact .inl fun event member accepted => absurd accepted (none_ event member)
    · intro _ replay ran
      simp [replaySignedRouteEvents,some_] at ran
  · rcases replay_cases host manager draws some_ with
      ⟨replay, ran, every, counted⟩ | ⟨error, ran, event, member, unread⟩
    · rw [ran]
      constructor
      · intro rests
        exact .inl ((restsOnIntact_iff counted).mp (rests replay rfl))
      · rintro (all | ⟨event, member, accepted, unread⟩) replay' same
        · obtain rfl := Except.ok.inj same
          exact (restsOnIntact_iff counted).mpr all
        · rw [every event (mem_routesToReplay.mpr ⟨member, accepted⟩)] at unread
          cases unread
    · rw [ran]
      constructor
      · intro _
        exact .inr ⟨event, (mem_routesToReplay.mp member).1, (mem_routesToReplay.mp member).2, unread⟩
      · intro _ replay same
        cases same

/-! What was issued is intact, and no alteration of it is. -/

theorem authorityIn_issued (host : Host) (a : OmniRouteAuthority) (parent : String) :
    authorityIn (a.toLedgerPayload host parent) = some a := by
  generalize hash : a.authorityHash host = digest
  simp [authorityIn,textOf,OmniRouteAuthority.toLedgerPayload,Json.get,Json.lookup,Json.asStr,Json.asBool,Json.nat,
    Json.asU64,hash]

theorem intact_iff {a : OmniRouteAuthority} (fields : authorityIn event.payload = some a) :
    intact host event = true ↔ textOf event.payload "authority_hash" = some (a.authorityHash host) := by
  rw [intact,fields,Option.any_some,decide_eq_true_iff]

theorem issued_intact {a : OmniRouteAuthority} {parent : String}
    (issued : event.payload = a.toLedgerPayload host parent) : intact host event = true := by
  have fields : authorityIn event.payload = some a := by rw [issued,authorityIn_issued]
  rw [intact_iff fields,issued]
  exact (toLedgerPayload_reports host a parent).authorityHash

theorem lookup_withHash (hash key : String) (fields : List (String × Json)) :
    Json.lookup key (fields.map fun field => if field.1 = "authority_hash" then (field.1, .str hash) else field) =
      if key = "authority_hash" then (Json.lookup key fields).map fun _ => .str hash else Json.lookup key fields := by
  induction fields with
  | nil => simp [Json.lookup]
  | cons field rest ih =>
    rw [List.map_cons]
    by_cases hashed : field.1 = "authority_hash" <;> by_cases same : field.1 = key <;>
      simp_all [Json.lookup]

theorem get_withHash {key : String} (other : key ≠ "authority_hash") (hash : String) (payload : Json) :
    (withHash hash payload).get key = payload.get key := by
  cases payload with
  | obj fields => exact (lookup_withHash hash key fields).trans (if_neg other)
  | _ => rfl

theorem textOf_withHash {key : String} (other : key ≠ "authority_hash") (hash : String) (payload : Json) :
    textOf (withHash hash payload) key = textOf payload key := by
  rw [textOf,get_withHash other,textOf]

theorem textOf_hash {hash old : String} {payload : Json} (recorded : textOf payload "authority_hash" = some old) :
    textOf (withHash hash payload) "authority_hash" = some hash := by
  cases payload with
  | obj fields =>
    have looked : (withHash hash (.obj fields)).get "authority_hash" = _ := lookup_withHash hash "authority_hash" fields
    rw [if_pos rfl] at looked
    rw [textOf,looked]
    cases found : Json.lookup "authority_hash" fields with
    | none => simp [textOf,Json.get,found] at recorded
    | some value => rfl
  | _ => cases recorded

theorem authorityIn_withHash (hash : String) (payload : Json) :
    authorityIn (withHash hash payload) = authorityIn payload := by
  simp (disch := decide) only [authorityIn,textOf_withHash,get_withHash]

/-- What the hash is taken of. -/
def OmniRouteAuthority.basis (a : OmniRouteAuthority) : Json := .obj [
  ("authority", .str a.authority),
  ("authority_schema", .str a.authoritySchema),
  ("session_id", .str a.sessionId),
  ("omni_session_id", .str a.omniSessionId),
  ("principal_id", .str a.principalId),
  ("channel_type", .str a.channelType),
  ("channel_id", .str a.channelId),
  ("thread_id", .str a.threadId),
  ("message_id", .str a.messageId),
  ("envelope_id", .str a.envelopeId),
  ("source_hash", .str a.sourceHash),
  ("route", .str a.route),
  ("channel_attached", .bool a.channelAttached),
  ("message_count", .nat a.messageCount),
  ("attachment_count", .nat a.attachmentCount),
  ("session_graph_hash", .str a.sessionGraphHash)]

theorem authorityHash_eq (host : Host) (a : OmniRouteAuthority) :
    a.authorityHash host = host.sha256Hex (Host.utf8 (host.toText a.basis)) := rfl

/-- The counts are `usize` values. -/
def OmniRouteAuthority.Counted (a : OmniRouteAuthority) : Prop := a.messageCount < 2 ^ 64 ∧ a.attachmentCount < 2 ^ 64

theorem basis_plain {a : OmniRouteAuthority} (counted : a.Counted) : a.basis.plain = true := by
  obtain ⟨messages, attachments⟩ := counted
  simp only [OmniRouteAuthority.basis,Json.plain,Json.exact,Json.exactFields,Json.depth,Json.depthFields,Json.nat]
  simp
  omega

theorem basis_injective : Function.Injective OmniRouteAuthority.basis := by
  intro a b same
  cases a; cases b
  simpa [OmniRouteAuthority.basis,Json.nat] using same

theorem authorityHash_injective (free : host.CollisionFree) (reads : host.ReadsBack) {a b : OmniRouteAuthority}
    (countedA : a.Counted) (countedB : b.Counted) (same : a.authorityHash host = b.authorityHash host) : a = b := by
  rw [authorityHash_eq,authorityHash_eq] at same
  have text : host.toText a.basis = host.toText b.basis := toByteArray_toList_injective (free same)
  have read := reads a.basis (basis_plain countedA)
  rw [text,reads b.basis (basis_plain countedB)] at read
  exact (basis_injective (Option.some.inj read)).symm

/-- With a field altered and the hash it was issued with, a route is not intact. -/
theorem altered_not_intact (free : host.CollisionFree) (reads : host.ReadsBack) {issued altered : OmniRouteAuthority}
    {parent : String} (counted : issued.Counted) (counted' : altered.Counted) (differs : altered ≠ issued)
    (payload : event.payload = withHash (issued.authorityHash host) (altered.toLedgerPayload host parent)) :
    intact host event = false := by
  have fields : authorityIn event.payload = some altered := by rw [payload,authorityIn_withHash,authorityIn_issued]
  rw [← Bool.not_eq_true,intact_iff fields,payload,
    textOf_hash (toLedgerPayload_reports host altered parent).authorityHash]
  intro same
  exact differs (authorityHash_injective free reads counted' counted (Option.some.inj same).symm)

end

/-- A route of `zaion1ab`, and the same as the ledger's editor would have it. -/
def issuedRoute : OmniRouteAuthority where
  authority := "OmniSessionManager"
  authoritySchema := "zaion.omni_session_authority.v1"
  sessionId := "zaion1ab:main"
  omniSessionId := "s-1"
  principalId := "zaion1ab"
  channelType := "cli"
  channelId := "terminal"
  threadId := "main"
  messageId := "m-1"
  envelopeId := "0123456789abcdef"
  sourceHash := "0123456789abcdef"
  route := "CanonicalEnvelope -> OmniSessionManager -> principal session graph"
  channelAttached := true
  messageCount := 1
  attachmentCount := 1
  sessionGraphHash := "graph"

def alteredRoute : OmniRouteAuthority := { issuedRoute with principalId := "zaion1mallory" }

/-- The event still bears the hash and the signature it was logged with. -/
def alteredEvent : LedgerEvent where
  eventId := "event-1"
  principalId := "zaion1ab"
  namespaceKey := "default"
  runId := none
  eventType := "omni.route"
  payload := withHash (issuedRoute.authorityHash sampleHost) (alteredRoute.toLedgerPayload sampleHost "received")
  signature := some []
  createdAt := "2026-01-01T00:00:00Z"
  parentEventId := none

theorem hexEncode_named {bytes : List UInt8} (some_ : bytes ≠ []) : trim (hexEncode bytes) ≠ "" := by
  cases bytes with
  | nil => exact absurd rfl some_
  | cons b rest =>
    rw [hexEncode]
    exact trim_ne_of_lowerHex (by simp [hexChars]) (fun c member => hexChars_lower (by simpa using member))

theorem issuedHash_named : trim (issuedRoute.authorityHash sampleHost) ≠ "" := hexEncode_named (utf8_toText_ne _)

theorem alteredEvent_reports {key value : String} (other : key ≠ "authority_hash")
    (text : textOf (alteredRoute.toLedgerPayload sampleHost "received") key = some value) :
    textOf alteredEvent.payload key = some value := (textOf_withHash other _ _).trans text

theorem alteredEvent_readable : readable alteredEvent = true := by
  have reports := toLedgerPayload_reports sampleHost alteredRoute "received"
  have recorded : textOf alteredEvent.payload "authority_hash" = some (issuedRoute.authorityHash sampleHost) :=
    textOf_hash reports.authorityHash
  rw [readable_iff]
  unfold readRoute
  rw [requiredPayloadStr_ok (alteredEvent_reports (by decide) reports.principalId) (by decide),
    requiredPayloadStr_ok (alteredEvent_reports (by decide) reports.omniSessionId) (by decide),
    requiredPayloadStr_ok (alteredEvent_reports (by decide) reports.channelId) (by decide),
    requiredPayloadStr_ok (alteredEvent_reports (by decide) reports.threadId) (by decide),
    requiredPayloadStr_ok (alteredEvent_reports (by decide) reports.messageId) (by decide),
    requiredPayloadStr_ok (alteredEvent_reports (by decide) reports.sourceHash) (by decide),
    requiredPayloadStr_ok recorded issuedHash_named]
  exact ⟨_, rfl⟩

theorem alteredEvent_signed : isSignedRoute none alteredEvent = true := by
  have reports := toLedgerPayload_reports sampleHost alteredRoute "received"
  have authority : (alteredEvent.payload.get "authority").bind Json.asStr = some _ :=
    alteredEvent_reports (by decide) reports.authority
  have schema : (alteredEvent.payload.get "authority_schema").bind Json.asStr = some _ :=
    alteredEvent_reports (by decide) reports.authoritySchema
  rw [isSignedRoute,authority,schema]
  rfl

/-- The altered route is counted as verified and opens a session for its new principal. -/
theorem altered_route_replayed : ¬ ∀ replay,
    (replaySignedRouteEvents sampleHost (.new 8) (fun _ => ⟨"s-9", sampleNow⟩) [alteredEvent] none).2 = .ok replay →
      RestsOnIntact sampleHost (.new 8) (fun _ => ⟨"s-9", sampleNow⟩) [alteredEvent] none replay := by
  have routes : routesToReplay [alteredEvent] none = [alteredEvent] := by
    simp [routesToReplay,alteredEvent_signed]
  have some_ : routesToReplay [alteredEvent] none ≠ [] := by simp [routes]
  intro rests
  rcases replay_cases sampleHost (.new 8) (fun _ => ⟨"s-9", sampleNow⟩) some_ with
    ⟨replay, ran, _, counted⟩ | ⟨_, _, event, member, unread⟩
  · have all := (restsOnIntact_iff counted).mp (rests replay (by rw [ran]))
    have same := all alteredEvent List.mem_cons_self alteredEvent_signed
    have differs : alteredRoute ≠ issuedRoute := by decide
    rw [altered_not_intact sampleHost_collisionFree sampleHost_readsBack ⟨by decide, by decide⟩ ⟨by decide, by decide⟩
      differs rfl] at same
    cases same
  · rw [routes,List.mem_singleton] at member
    rw [member,alteredEvent_readable] at unread
    cases unread

end Zaion.Omni
