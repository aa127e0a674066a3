import Zaion.Session.Split

/-! What a branch does to the session table. The parent goes through `SessionMetadata`, which has no counts, no
cost and no time of the last update, and comes back as a whole row. -/
namespace Zaion.Session

open Lib Ledger

/-- The parent has ended and nothing else of it is new but a time that is not earlier, in the order of
`prune_older_than`; the other sessions and the events are as they were, and one session more is there. -/
structure Framed (world world' : World) (sessionId reason : String) : Prop where
  parent : ∃ old new, lookupSession world.sessions sessionId = some old ∧
    lookupSession world'.sessions sessionId = some new ∧
    new = { old with updatedAt := new.updatedAt, endReason := some reason } ∧ old.updatedAt ≤ new.updatedAt
  others : ∀ id, id ≠ sessionId → ∀ row, lookupSession world.sessions id = some row →
    lookupSession world'.sessions id = some row
  one : world'.sessions.length = world.sessions.length + 1
  events : world.events <+: world'.events

/-- A session that nothing has been counted for, and that has not been touched since it was created. -/
structure SessionEntry.Unused (entry : SessionEntry) : Prop where
  messages : entry.messageCount = 0
  tools : entry.toolCallCount = 0
  cost : entry.estimatedCostUsd = 0
  flushed : entry.memoryFlushed = false
  time : entry.updatedAt ≤ entry.createdAt

/-- What the way through the metadata makes of a session. -/
def SessionEntry.ended (entry : SessionEntry) (reason : String) : SessionEntry := { entry with
  updatedAt := entry.createdAt
  messageCount := 0
  toolCallCount := 0
  estimatedCostUsd := 0
  memoryFlushed := false
  endReason := some reason }

/-! The table -/

section

variable {sessions : List SessionEntry} {sessionId : String}

theorem lookupSession_id {row : SessionEntry} (found : lookupSession sessions sessionId = some row) :
    row.sessionId = sessionId := by
  have same := List.find?_some found
  exact of_decide_eq_true same

theorem lookupSession_map {f : SessionEntry → SessionEntry} (kept : ∀ row, (f row).sessionId = row.sessionId) :
    lookupSession (sessions.map f) sessionId = (lookupSession sessions sessionId).map f := by
  rw [lookupSession,List.find?_map,lookupSession]
  simp only [Function.comp_def,kept]

theorem lookupSession_concat {entry : SessionEntry} (other : sessionId ≠ entry.sessionId) :
    lookupSession (sessions ++ [entry]) sessionId = lookupSession sessions sessionId := by
  rw [lookupSession,List.find?_append,List.find?_singleton,decide_eq_false (Ne.symm other),lookupSession]
  simp

/-- An update of the rows with an id. -/
def atSession (sessionId : String) (f : SessionEntry → SessionEntry) (row : SessionEntry) : SessionEntry :=
  if row.sessionId = sessionId then f row else row

theorem atSession_self {f : SessionEntry → SessionEntry} {row : SessionEntry} (same : row.sessionId = sessionId) :
    atSession sessionId f row = f row := if_pos same

theorem atSession_other {f : SessionEntry → SessionEntry} {row : SessionEntry} (other : row.sessionId ≠ sessionId) :
    atSession sessionId f row = row := if_neg other

theorem atSession_id {f : SessionEntry → SessionEntry} (kept : ∀ row, (f row).sessionId = row.sessionId)
    (row : SessionEntry) : (atSession sessionId f row).sessionId = row.sessionId := by
  rw [atSession]
  split
  · exact kept row
  · rfl

/-- Updating rows with an id that no row has. -/
theorem map_atSession_absent {f : SessionEntry → SessionEntry} (absent : lookupSession sessions sessionId = none) :
    sessions.map (atSession sessionId f) = sessions := by
  refine (List.map_congr_left fun row member => ?_).trans (List.map_id _)
  exact atSession_other (by simpa using List.find?_eq_none.mp absent row member)

end

/-! The calls -/

section

variable {world world' : World} {u : Unit}

theorem upsertSession_ok {entry : SessionEntry} (h : upsertSession entry world = (.ok u, world')) :
    (lookupSession world.sessions entry.sessionId = none → world'.sessions = world.sessions ++ [entry]) ∧
    ((lookupSession world.sessions entry.sessionId).isSome →
      world'.sessions = world.sessions.map (atSession entry.sessionId fun old => mergeEntry old entry)) := by
  unfold upsertSession at h
  split at h
  swap
  · cases h
  cases found : lookupSession world.sessions entry.sessionId with
  | none =>
    rw [found] at h
    cases h
    exact ⟨fun _ => rfl, fun absent => (by cases absent)⟩
  | some old =>
    rw [found] at h
    cases h
    exact ⟨fun absent => (by cases absent), fun _ => rfl⟩

theorem mergeEntry_id (entry old : SessionEntry) : (mergeEntry old entry).sessionId = old.sessionId := rfl

/-- A row with its title set. -/
def SessionEntry.entitled (title now : String) (entry : SessionEntry) : SessionEntry :=
  { entry with sessionKey := title, updatedAt := now }

theorem entitled_id (title now : String) (entry : SessionEntry) :
    (entry.entitled title now).sessionId = entry.sessionId := rfl

theorem storeTitle_ok {sessionId title now : String} (h : storeTitle sessionId title now world = (.ok u, world')) :
    world'.sessions = world.sessions.map (atSession sessionId (SessionEntry.entitled title now)) := by
  unfold storeTitle at h
  split at h
  · cases h
    rfl
  · cases h

/-- The row an adapter writes. -/
def rowFor (sessionId principalId : String) (metadata : SessionMetadata) : SessionEntry where
  sessionId := sessionId
  principalId := principalId
  platform := metadata.source
  chatId := metadata.chatId.getD "default"
  userId := metadata.userId
  threadId := metadata.threadId
  sessionKey := metadata.title.getD sessionId
  createdAt := metadata.createdAt
  updatedAt := metadata.createdAt
  messageCount := 0
  toolCallCount := 0
  estimatedCostUsd := 0
  memoryFlushed := false
  wasAutoReset := false
  autoResetReason := none
  parentSessionId := metadata.parentSessionId
  endReason := metadata.endReason

theorem putSession_ok {adapter : Adapter} {sessionId : String} {metadata : SessionMetadata}
    (h : adapter.putSession sessionId metadata world = (.ok u, world')) :
    ∃ principalId, upsertSession (rowFor sessionId principalId metadata) world = (.ok u, world') := by
  obtain ⟨principalId, middle, known, written⟩ := Call.bind_ok h
  obtain ⟨_, rfl⟩ := Call.check_ok known
  exact ⟨principalId, written⟩

theorem copyEvents_sessions {host : Host} {keypair : Keypair} {draw : Draw} {fromSession toSession : String}
    (sources : List LedgerEvent) (n : Nat) (world : World) :
    (copyEvents host keypair draw fromSession toSession sources n world).2.sessions = world.sessions := by
  induction sources generalizing n world with
  | nil => rfl
  | cons source rest ih =>
    simp only [copyEvents]
    split
    · exact ih _ _
    · rfl

theorem sourceEvents_world (host : Host) (sessionId : String) (world : World) :
    (Adapter.sourceEvents host sessionId world).2 = world := by
  unfold Adapter.sourceEvents
  split <;> rfl

theorem copyHistory_sessions {host : Host} {adapter : Adapter} {draw : Draw} {fromSession toSession : String}
    {copied : Nat} (h : adapter.copyHistory host draw fromSession toSession world = (.ok copied, world')) :
    world'.sessions = world.sessions := by
  obtain ⟨keypair, _, known, checked⟩ := Call.bind_ok h
  obtain ⟨_, before, named, listed⟩ := Call.bind_ok checked
  obtain ⟨events, middle, read, copies⟩ := Call.bind_ok listed
  obtain ⟨_, rfl⟩ := Call.check_ok known
  obtain ⟨_, rfl⟩ := Call.check_ok named
  have same : middle = before := (congrArg Prod.snd read).symm.trans (sourceEvents_world host fromSession before)
  rw [← same]
  have kept := @copyEvents_sessions host keypair draw fromSession toSession events.reverse 0 middle
  rw [copies] at kept
  exact kept

end

/-! A branch -/

section

variable {host : Host} {adapter : Adapter} {draw : BranchDraw} {request : BranchRequest} {reason : String}
  {result : BranchResult} {world world' : World}

/-- A row as `get_session` shows it. -/
def SessionEntry.view (entry : SessionEntry) : SessionMetadata where
  principalId := entry.principalId
  sessionId := entry.sessionId
  parentSessionId := entry.parentSessionId
  title := some entry.sessionKey
  model := "unknown"
  source := entry.platform
  chatId := some entry.chatId
  userId := entry.userId
  threadId := entry.threadId
  endReason := entry.endReason
  createdAt := entry.createdAt
  endedAt := none

theorem getSession_run (sessionId : String) (world : World) :
    Adapter.getSession sessionId world =
      (.ok ((lookupSession world.sessions sessionId).map SessionEntry.view), world) := rfl

theorem getSession_ok {sessionId : String} {found : Option SessionMetadata}
    (h : Adapter.getSession sessionId world = (.ok found, world')) :
    found = (lookupSession world.sessions sessionId).map SessionEntry.view ∧ world' = world := by
  rw [getSession_run] at h
  cases h
  exact ⟨rfl, rfl⟩

theorem getTitle_world {sessionId : String} {title : Option String}
    (h : Adapter.getTitle sessionId world = (.ok title, world')) : world' = world := by
  cases h
  rfl

/-- An ended parent written back. -/
theorem merge_parent (parent : SessionEntry) (principalId ended : String) : mergeEntry parent
    (rowFor parent.sessionId principalId { parent.view with endReason := some reason, endedAt := some ended }) =
      parent.ended reason := by
  have kept : parent.parentSessionId.or parent.parentSessionId = parent.parentSessionId := Option.or_self
  rw [mergeEntry,SessionEntry.ended,rowFor,SessionEntry.view]
  simp only [kept,Option.getD_some,Option.some_or]

section

variable {created titled copied updated : World} {metadata : SessionMetadata} {parent : SessionEntry}
  {title now ended : String} {u v w : Unit}

/-- The writes of a branch, with a new id and with one that is there. -/
theorem writes_new (there : lookupSession world.sessions parent.sessionId = some parent)
    (create : adapter.createSession metadata world = (.ok u, created))
    (entitle : storeTitle metadata.sessionId title now created = (.ok v, titled))
    (kept : copied.sessions = titled.sessions)
    (update : adapter.updateSession parent.sessionId
      { parent.view with endReason := some reason, endedAt := some ended } copied = (.ok w, updated))
    (new : lookupSession world.sessions metadata.sessionId = none) :
    ∃ f child, updated.sessions = world.sessions.map (atSession parent.sessionId f) ++ [child] ∧
      child.sessionId = metadata.sessionId ∧ (∀ row, (f row).sessionId = row.sessionId) ∧
      f parent = parent.ended reason := by
  obtain ⟨principalId, inserted⟩ := putSession_ok create
  obtain ⟨principalId', merged⟩ := putSession_ok update
  have other : parent.sessionId ≠ metadata.sessionId := by
    intro same
    rw [same,new] at there
    cases there
  obtain ⟨child, named, second⟩ : ∃ child : SessionEntry, child.sessionId = metadata.sessionId ∧
      titled.sessions = world.sessions ++ [child] := by
    have whole := storeTitle_ok entitle
    rw [(upsertSession_ok inserted).1 new,List.map_append,map_atSession_absent new,List.map_singleton] at whole
    exact ⟨_, atSession_id (entitled_id title now) _, whole⟩
  have found : (lookupSession copied.sessions parent.sessionId).isSome := by
    rw [kept,second,lookupSession_concat (named ▸ other),there]
    rfl
  have third := (upsertSession_ok merged).2 found
  rw [kept,second,List.map_append,List.map_singleton,atSession_other (named ▸ other.symm)] at third
  exact ⟨_, child, third, named, mergeEntry_id _, merge_parent parent principalId' ended⟩

/-- With an id that is there, no session is added. -/
theorem writes_old (there : lookupSession world.sessions parent.sessionId = some parent)
    (create : adapter.createSession metadata world = (.ok u, created))
    (entitle : storeTitle metadata.sessionId title now created = (.ok v, titled))
    (kept : copied.sessions = titled.sessions)
    (update : adapter.updateSession parent.sessionId
      { parent.view with endReason := some reason, endedAt := some ended } copied = (.ok w, updated))
    (old : (lookupSession world.sessions metadata.sessionId).isSome) :
    updated.sessions.length = world.sessions.length := by
  obtain ⟨principalId, inserted⟩ := putSession_ok create
  obtain ⟨principalId', merged⟩ := putSession_ok update
  have first := (upsertSession_ok inserted).2 old
  have second := storeTitle_ok entitle
  rw [first,List.map_map] at second
  have found : (lookupSession copied.sessions parent.sessionId).isSome := by
    rw [kept,second,lookupSession_map,there]
    · rfl
    · intro row
      exact (atSession_id (entitled_id title now) _).trans (atSession_id (mergeEntry_id _) _)
  rw [(upsertSession_ok merged).2 found,List.length_map,kept,second,List.length_map]

end

/-- After a branch: the parent has ended, the others stay, and with a new id one session is added. -/
theorem branch_sessions (h : branchWithParentEndReason host adapter draw request reason world = (.ok result, world')) :
    ∃ parent, lookupSession world.sessions request.parentSessionId = some parent ∧
      ((lookupSession world.sessions draw.sessionId).isSome → world'.sessions.length = world.sessions.length) ∧
      (lookupSession world.sessions draw.sessionId = none → ∃ f child,
        world'.sessions = world.sessions.map (atSession request.parentSessionId f) ++ [child] ∧
        child.sessionId = draw.sessionId ∧ (∀ row, (f row).sessionId = row.sessionId) ∧
        f parent = parent.ended reason) := by
  obtain ⟨_, w0, reasoned, run⟩ := Call.bind_ok h
  obtain ⟨found, w1, got, run⟩ := Call.bind_ok run
  obtain ⟨metadata, w2, known, run⟩ := Call.bind_ok run
  obtain ⟨_, w3, safe, run⟩ := Call.bind_ok run
  obtain ⟨_, w4, nonempty, run⟩ := Call.bind_ok run
  obtain ⟨title, w5, named, run⟩ := Call.bind_ok run
  obtain ⟨_, w6, created, run⟩ := Call.bind_ok run
  obtain ⟨_, w7, titled, run⟩ := Call.bind_ok run
  obtain ⟨copied, w8, history, run⟩ := Call.bind_ok run
  obtain ⟨_, w9, updated, run⟩ := Call.bind_ok run
  obtain ⟨rfl, rfl⟩ := Call.ret_ok run
  obtain ⟨_, rfl⟩ := Call.check_ok reasoned
  obtain ⟨viewed, rfl⟩ := getSession_ok got
  obtain ⟨present, rfl⟩ := Call.check_ok known
  obtain ⟨_, rfl⟩ := Call.check_ok safe
  obtain ⟨_, rfl⟩ := Call.check_ok nonempty
  obtain rfl := getTitle_world named
  rw [viewed] at present
  obtain ⟨parent, there, rfl⟩ := Option.map_eq_some_iff.mp (required_ok_iff.mp present)
  have kept := copyHistory_sessions history
  have id := lookupSession_id there
  rw [← id] at there updated ⊢
  exact ⟨parent, there, writes_old there created titled kept updated, writes_new there created titled kept updated⟩

/-- The row found after a branch. -/
theorem lookup_after {sessions sessions' : List SessionEntry} {f : SessionEntry → SessionEntry}
    {child row : SessionEntry} {sessionId id : String} (after : sessions' = sessions.map (atSession sessionId f) ++ [child])
    (kept : ∀ row, (f row).sessionId = row.sessionId) (absent : lookupSession sessions child.sessionId = none)
    (found : lookupSession sessions id = some row) : lookupSession sessions' id = some (atSession sessionId f row) := by
  have other : id ≠ child.sessionId := by
    rintro rfl
    rw [absent] at found
    cases found
  rw [after,lookupSession_concat other,lookupSession_map (atSession_id kept),found]
  rfl

theorem unused_of_framed (run : branchWithParentEndReason host adapter draw request reason world = (.ok result, world'))
    (framed : Framed world world' request.parentSessionId reason) : lookupSession world.sessions draw.sessionId = none ∧
      ∀ parent, lookupSession world.sessions request.parentSessionId = some parent → parent.Unused := by
  obtain ⟨parent, there, old, new⟩ := branch_sessions run
  have absent : lookupSession world.sessions draw.sessionId = none := by
    by_contra known
    have same := old (Option.isSome_iff_ne_none.mpr known)
    rw [framed.one] at same
    exact absurd same (Nat.succ_ne_self _)
  obtain ⟨f, child, sessions, named, kept, ended⟩ := new absent
  refine ⟨absent, fun parent' there' => ?_⟩
  obtain rfl := Option.some.inj (there.symm.trans there')
  obtain ⟨before, after, found, found', same, later⟩ := framed.parent
  obtain rfl := Option.some.inj (there.symm.trans found)
  have known := lookup_after sessions kept (named ▸ absent) there
  rw [atSession_self (lookupSession_id there),ended,found'] at known
  obtain rfl := Option.some.inj known
  have columns : ∀ column : SessionEntry → Prop, column (parent.ended reason) →
      column { parent with updatedAt := (parent.ended reason).updatedAt, endReason := some reason } :=
    fun column holds => same ▸ holds
  exact ⟨columns (fun row => row.messageCount = 0) rfl, columns (fun row => row.toolCallCount = 0) rfl,
    columns (fun row => row.estimatedCostUsd = 0) rfl, columns (fun row => row.memoryFlushed = false) rfl, later⟩

/-- A branch that goes through leaves the rest as it was just when its id is new and its parent has not been used. -/
theorem branch_frames_parent (host : Host) (adapter : Adapter) (draw : BranchDraw) (request : BranchRequest)
    (reason : String) (result : BranchResult) (world world' : World)
    (run : branchWithParentEndReason host adapter draw request reason world = (.ok result, world')) :
    Framed world world' request.parentSessionId reason ↔ lookupSession world.sessions draw.sessionId = none ∧
      ∀ parent, lookupSession world.sessions request.parentSessionId = some parent → parent.Unused := by
  obtain ⟨parent, there, _, new⟩ := branch_sessions run
  constructor
  · exact unused_of_framed run
  · rintro ⟨absent, unused⟩
    obtain ⟨f, child, sessions, named, kept, ended⟩ := new absent
    have fresh := unused parent there
    refine ⟨⟨parent, parent.ended reason, there, ?_, ?_, fresh.time⟩, fun id other row at_ => ?_, ?_, ?_⟩
    · rw [lookup_after sessions kept (named ▸ absent) there,atSession_self (lookupSession_id there),ended]
    · simp only [SessionEntry.ended,fresh.messages,fresh.tools,fresh.cost,fresh.flushed]
    · rw [lookup_after sessions kept (named ▸ absent) at_]
      exact congrArg some (atSession_other (lookupSession_id at_ ▸ other))
    · rw [sessions,List.length_append,List.length_map,List.length_singleton]
    · obtain ⟨_, sources, copies, _, grown, _⟩ := branch_events run
      exact ⟨copies, grown.symm⟩

end

theorem quietWorld_framed : ∃ result world', branchWithParentEndReason sampleHost aliceAdapter noonDraw
      ⟨"20260101_000000_00000000", some "experiment", [⟨"user", "try it"⟩]⟩ "compression" quietWorld =
        (.ok result, world') ∧ Framed quietWorld world' "20260101_000000_00000000" "compression" := by
  obtain ⟨result, world', run⟩ := @quietWorld_branches "experiment" [⟨"user", "try it"⟩] (by decide) (by simp)
  have framed := branch_frames_parent sampleHost aliceAdapter noonDraw
    ⟨"20260101_000000_00000000", some "experiment", [⟨"user", "try it"⟩]⟩ "compression" result quietWorld world' run
  refine ⟨result, world', run, framed.mpr ⟨?_, fun parent found => ?_⟩⟩
  · decide
  · obtain rfl := List.mem_singleton.mp (List.mem_of_find?_eq_some found)
    exact ⟨rfl, rfl, rfl, rfl, String.le_refl _⟩

/-- The session with twelve messages and three tool calls, at a cost of one half, an hour later. -/
def usedEntry : SessionEntry where
  sessionId := "20260101_000000_00000000"
  principalId := "zaion1alice"
  platform := "cli"
  chatId := "default"
  userId := none
  threadId := none
  sessionKey := "Session"
  createdAt := "2026-01-01T00:00:00.000Z"
  updatedAt := "2026-01-01T01:00:00.000Z"
  messageCount := 12
  toolCallCount := 3
  estimatedCostUsd := 4602678819172646912
  memoryFlushed := true
  wasAutoReset := false
  autoResetReason := none
  parentSessionId := none
  endReason := none

def usedWorld : World := ⟨[usedEntry], []⟩

theorem session_number : lineageNumber "Session" = none := rfl

theorem session_second : generateLineageTitle "Session" = "Session #2" := by
  rw [generateLineageTitle,session_number]
  rfl

theorem usedWorld_branches : ∃ result world', branchWithParentEndReason sampleHost aliceAdapter noonDraw
    ⟨"20260101_000000_00000000", none, [⟨"user", "try it"⟩]⟩ "branched" usedWorld = (.ok result, world') := by
  simp [branchWithParentEndReason,Adapter.getSession,Adapter.getTitle,Adapter.createSession,
    Adapter.updateSession,Adapter.putSession,Adapter.principalForMetadata,Adapter.copyHistory,
    Adapter.sourceEvents,listEvents,mapAll,copyEvents,bind,Call.andThen,Call.check,Call.ret,
    Except.bind,alice_safe,alice_named,branched_named,quiet_named,noon_named,session_second,upsertSession,storeTitle,keyFree,usedWorld,usedEntry,
    lookupSession,noonDraw,aliceAdapter]

/-- The branched session has lost its counts and its cost. -/
theorem usedWorld_loses : ∃ result world', branchWithParentEndReason sampleHost aliceAdapter noonDraw
      ⟨"20260101_000000_00000000", none, [⟨"user", "try it"⟩]⟩ "branched" usedWorld = (.ok result, world') ∧
    ¬Framed usedWorld world' "20260101_000000_00000000" "branched" := by
  obtain ⟨result, world', run⟩ := usedWorld_branches
  refine ⟨result, world', run, fun framed => ?_⟩
  have there : lookupSession usedWorld.sessions "20260101_000000_00000000" = some usedEntry := by decide
  exact absurd ((unused_of_framed run framed).2 usedEntry there).messages (by decide)

end Zaion.Session
