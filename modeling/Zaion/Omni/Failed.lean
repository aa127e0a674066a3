import Zaion.Ledger.Query
import Zaion.Omni.Intact

/-! What a replay that fails leaves of the sessions it was called on: the maps are cleared before
the first route is read. -/
namespace Zaion.Omni

open Lib Ledger OmniSessionManager

inductive ReplayError where
  | ledger (error : LedgerError)
  | runtime (error : RuntimeError)
  deriving DecidableEq, Repr

def OmniSessionManager.replayFromLedger (host : Host) (manager : OmniSessionManager) (draws : Nat → Draw)
    (scan : ScanOrder) (table : List EventRow) (principalFilter : Option String) (limit : UInt64) :
    OmniSessionManager × Except ReplayError OmniSessionGraphReplay :=
  match EventQuery.listGlobalEvents.run host scan table limit with
  | .error error => (manager, .error (.ledger error))
  | .ok events =>
    let replayed := replaySignedRouteEvents host manager draws events principalFilter
    (replayed.1, replayed.2.mapError .runtime)

/-- The same sessions, archived sessions and channels; a hash map keeps no order. -/
structure SameMaps (a b : OmniSessionManager) : Prop where
  sessions : ∀ principal, a.sessions.lookup principal = b.sessions.lookup principal
  archivedSessions : ∀ id, a.archivedSessions.lookup id = b.archivedSessions.lookup id
  channelMap : ∀ channel, a.channelMap.lookup channel = b.channelMap.lookup channel

/-- A call that fails leaves the maps as they were. -/
def KeepsOnError (before : OmniSessionManager) (run : OmniSessionManager × Except ε α) : Prop :=
  ∀ error, run.2 = .error error → SameMaps run.1 before

/-- No session, archived session or channel. -/
structure Vacant (manager : OmniSessionManager) : Prop where
  sessions : manager.sessions = ∅
  archivedSessions : manager.archivedSessions = ∅
  channelMap : manager.channelMap = ∅

/-- A replay of the routes has nothing to lose: there are none, or all can be read, or the first
cannot and the maps are empty. -/
def NothingToLose (manager : OmniSessionManager) (routes : List LedgerEvent) : Prop :=
  (∀ event ∈ routes, readable event = true) ∨ (∃ first ∈ routes.head?, readable first = false) ∧ Vacant manager

section

variable {host : Host} {draws : Nat → Draw} {manager before : OmniSessionManager}

theorem SameMaps.refl (manager : OmniSessionManager) : SameMaps manager manager :=
  ⟨fun _ => rfl, fun _ => rfl, fun _ => rfl⟩

theorem eq_empty_of_lookup {α β : Type} [DecidableEq α] {map : AList (fun _ : α => β)}
    (none_ : ∀ key, map.lookup key = none) : map = ∅ := by
  apply AList.ext
  cases found : map.entries with
  | nil => rfl
  | cons entry rest =>
    have member : entry ∈ map.entries := by rw [found]; exact List.mem_cons_self
    have there := AList.mem_lookup_iff.mpr member
    rw [none_ entry.1] at there
    cases there

theorem sameMaps_startReplay_iff : SameMaps manager.startReplay.manager manager ↔ Vacant manager := by
  constructor
  · intro same
    exact ⟨eq_empty_of_lookup fun p => (same.sessions p).symm,
      eq_empty_of_lookup fun id => (same.archivedSessions id).symm,
      eq_empty_of_lookup fun c => (same.channelMap c).symm⟩
  · intro vacant
    exact ⟨fun p => by rw [vacant.sessions]; rfl, fun id => by rw [vacant.archivedSessions]; rfl,
      fun c => by rw [vacant.channelMap]; rfl⟩

/-- The session's oldest attachment was attached at the time. -/
def AttachedAt (now : DateTime) (session : OmniSession) : Prop := ∃ a ∈ session.attachments.head?, a.attachedAt = now

theorem AttachedAt.replay {session : OmniSession} {now : DateTime} (attached : AttachedAt now session) (draw : Draw)
    (time : DateTime) (route : RoutePayload) : AttachedAt now (session.replay draw time route) := by
  obtain ⟨a, first, at_⟩ := attached
  have kept : a ∈ (session.replay draw time route).attachments.head? := by
    unfold OmniSession.replay OmniSession.attachChannel OmniSession.addMessage
    dsimp only
    split_ifs <;> simp_all [List.head?_append]
  exact ⟨a, kept, at_⟩

theorem replayRoute_lookup (createdAt : String) (draw : Draw) (route : RoutePayload) :
    (manager.replayRoute host draw createdAt route).sessions.lookup route.principal =
      some ((manager.sessionOrNew draw route.principal).replay draw (parseEventTime host draw createdAt) route) :=
  AList.lookup_insert _

theorem passAll_concat (state : Replaying) (events : List LedgerEvent) (event : LedgerEvent) :
    passAll host draws state (events ++ [event]) = passAll host draws (passAll host draws state events) [event] :=
  List.foldl_append

theorem attachedAt_pass {state : Replaying} {principal : String} {session : OmniSession} {now : DateTime}
    (found : state.manager.sessions.lookup principal = some session) (attached : AttachedAt now session)
    (event : LedgerEvent) : ∃ session',
      (passAll host draws state [event]).manager.sessions.lookup principal = some session' ∧
      AttachedAt now session' := by
  cases read : readRoute event.payload with
  | error error => exact ⟨session, by simpa [passAll,read] using found, attached⟩
  | ok route =>
    have passed : passAll host draws state [event] = state.pass host draws event route := by simp [passAll,read]
    rw [passed]
    by_cases same : principal = route.principal
    · subst same
      refine ⟨_, replayRoute_lookup event.createdAt (draws state.passes) route, ?_⟩
      rw [OmniSessionManager.sessionOrNew,found]
      exact attached.replay _ _ route
    · exact ⟨session, (AList.lookup_insert_ne same).trans found, attached⟩

/-- The first pass on cleared maps opens a session that bears the reading of the clock, and no later
pass changes that. -/
theorem passAll_attachedAt (host : Host) (draws : Nat → Draw) (manager : OmniSessionManager) {first : LedgerEvent}
    {route : RoutePayload} (read : readRoute first.payload = .ok route) (rest : List LedgerEvent) : ∃ session,
      (passAll host draws manager.startReplay (first :: rest)).manager.sessions.lookup route.principal = some session ∧
      AttachedAt (draws 0).now session := by
  induction rest using List.reverseRecOn with
  | nil =>
    have passed : passAll host draws manager.startReplay [first] = manager.startReplay.pass host draws first route := by
      simp [passAll,read]
    rw [passed]
    refine ⟨_, replayRoute_lookup first.createdAt (draws 0) route, ?_⟩
    have opened : manager.startReplay.manager.sessionOrNew (draws 0) route.principal =
        .new route.principal manager.defaultMaxTokens (draws 0) := rfl
    rw [opened]
    refine ⟨⟨route.channelType, route.channelId, (draws 0).now, (draws 0).now⟩, ?_, rfl⟩
    simp [OmniSession.replay,OmniSession.new,OmniSession.attachChannel,OmniSession.addMessage]
  | append_singleton rest event ih =>
    obtain ⟨session, found, attached⟩ := ih
    rw [← List.cons_append,passAll_concat]
    exact attachedAt_pass found attached event

/-- Two readings of the clock leave different sessions, so one of them is not what was there. -/
theorem differs_of_pass (host : Host) (manager : OmniSessionManager) {first : LedgerEvent} {route : RoutePayload}
    (read : readRoute first.payload = .ok route) (rest : List LedgerEvent) :
    ∃ draws, ¬ SameMaps (passAll host draws manager.startReplay (first :: rest)).manager manager := by
  by_contra all
  push Not at all
  have early := all fun _ => ⟨"", sampleNow⟩
  have late := all fun _ => ⟨"", sampleDeadline⟩
  obtain ⟨a, foundA, _, first_, atA⟩ := passAll_attachedAt host (fun _ => ⟨"", sampleNow⟩) manager read rest
  obtain ⟨b, foundB, _, second, atB⟩ := passAll_attachedAt host (fun _ => ⟨"", sampleDeadline⟩) manager read rest
  rw [early.sessions] at foundA
  rw [late.sessions,foundA] at foundB
  obtain rfl := Option.some.inj foundB
  have same := Option.mem_unique first_ second
  rw [same,atB] at atA
  exact absurd atA (by decide)

/-- A replay that meets a route it cannot read fails, with the maps as far as it came. -/
theorem replay_unread (host : Host) (manager : OmniSessionManager) (draws : Nat → Draw) {events : List LedgerEvent}
    {principalFilter : Option String}
    (unread : ¬ ∀ event ∈ routesToReplay events principalFilter, readable event = true) :
    ∃ error, replaySignedRouteEvents host manager draws events principalFilter =
      ((passAll host draws manager.startReplay ((routesToReplay events principalFilter).takeWhile readable)).manager,
        .error error) := by
  have some_ : routesToReplay events principalFilter ≠ [] := by
    intro none_
    exact unread (by simp [none_])
  rcases replay_cases host manager draws some_ with ⟨_, _, every, _⟩ | ⟨error, ran, _⟩
  · exact absurd every unread
  · exact ⟨error, ran⟩

/-- Whatever the clock reads, a failed replay leaves the sessions alone exactly when it had nothing
to lose. -/
theorem replay_keeps_iff (host : Host) (manager : OmniSessionManager) (events : List LedgerEvent)
    (principalFilter : Option String) :
    (∀ draws, KeepsOnError manager (replaySignedRouteEvents host manager draws events principalFilter)) ↔
      NothingToLose manager (routesToReplay events principalFilter) := by
  by_cases all : ∀ event ∈ routesToReplay events principalFilter, readable event = true
  · refine iff_of_true ?_ (.inl all)
    intro draws error failed
    by_cases some_ : routesToReplay events principalFilter = []
    · simp only [replaySignedRouteEvents,some_]
      exact .refl manager
    · rcases replay_cases host manager draws some_ with ⟨_, ran, _⟩ | ⟨_, _, event, member, unread⟩
      · rw [ran] at failed
        cases failed
      · rw [all event member] at unread
        cases unread
  · have failed (draws : Nat → Draw) := replay_unread host manager draws all
    cases routes : routesToReplay events principalFilter with
    | nil => exact absurd (by simp [routes]) all
    | cons first rest =>
      rw [routes] at all failed
      cases read : readable first with
      | true =>
        obtain ⟨route, here⟩ := readable_iff.mp read
        rw [List.takeWhile_cons_of_pos read] at failed
        obtain ⟨draws, differs⟩ := differs_of_pass host manager here (rest.takeWhile readable)
        obtain ⟨error, ran⟩ := failed draws
        refine iff_of_false ?_ ?_
        · intro keeps
          have same := keeps draws error (by rw [ran])
          rw [ran] at same
          exact differs same
        · rintro (every | ⟨⟨_, ⟨⟩, unread⟩, _⟩)
          · exact all every
          · rw [read] at unread
            cases unread
      | false =>
        rw [List.takeWhile_cons_of_neg (by simp [read])] at failed
        have stopped : (∀ draws,
            KeepsOnError manager (replaySignedRouteEvents host manager draws events principalFilter)) ↔
              SameMaps manager.startReplay.manager manager := by
          constructor
          · intro keeps
            obtain ⟨error, ran⟩ := failed fun _ => ⟨"", sampleNow⟩
            have same := keeps _ error (by rw [ran])
            rwa [ran] at same
          · intro same draws _ _
            obtain ⟨_, ran⟩ := failed draws
            rwa [ran]
        rw [stopped,sameMaps_startReplay_iff]
        constructor
        · intro vacant
          exact .inr ⟨⟨first, rfl, read⟩, vacant⟩
        · rintro (every | ⟨_, vacant⟩)
          · exact absurd every all
          · exact vacant

/-- So for a call on the ledger, which may fail to list its events. -/
theorem failed_replay_keeps_iff (host : Host) (manager : OmniSessionManager) (principalFilter : Option String) :
    (∀ events, (∀ draws, KeepsOnError manager (replaySignedRouteEvents host manager draws events principalFilter)) ↔
      NothingToLose manager (routesToReplay events principalFilter)) ∧
    ∀ scan table limit,
      (∀ draws, KeepsOnError manager (replayFromLedger host manager draws scan table principalFilter limit)) ↔
        ∀ events, EventQuery.listGlobalEvents.run host scan table limit = .ok events →
          NothingToLose manager (routesToReplay events principalFilter) := by
  refine ⟨fun events => replay_keeps_iff host manager events principalFilter, ?_⟩
  intro scan table limit
  unfold replayFromLedger
  cases EventQuery.listGlobalEvents.run host scan table limit with
  | error error =>
    refine iff_of_true ?_ (fun _ same => absurd same (by simp))
    intro _ _ _
    exact .refl manager
  | ok events =>
    have told : (∀ events', (Except.ok events : Except LedgerError _) = .ok events' →
        NothingToLose manager (routesToReplay events' principalFilter)) ↔
          NothingToLose manager (routesToReplay events principalFilter) := by
      constructor
      · intro every
        exact every events rfl
      · rintro nothing _ ⟨⟩
        exact nothing
    rw [told,← replay_keeps_iff host]
    refine forall_congr' fun draws => ?_
    dsimp only
    generalize replaySignedRouteEvents host manager draws events principalFilter = run
    obtain ⟨after, result⟩ := run
    cases result with
    | ok replay => exact iff_of_true (fun _ same => by cases same) (fun _ same => by cases same)
    | error error =>
      constructor
      · intro keeps _ _
        exact keeps (.runtime error) rfl
      · intro keeps _ _
        exact keeps error rfl

end

/-- A route without its message id. -/
def nameless : LedgerEvent where
  eventId := "event-1"
  principalId := "zaion1ab"
  namespaceKey := "default"
  runId := none
  eventType := "omni.route"
  payload := .obj [
    ("authority", .str "OmniSessionManager"),
    ("authority_schema", .str "zaion.omni_session_authority.v1"),
    ("principal_id", .str "zaion1ab"),
    ("omni_session_id", .str "s-1"),
    ("channel_id", .str "terminal"),
    ("thread_id", .str "main")]
  signature := some []
  createdAt := "2026-01-01T00:00:00Z"
  parentEventId := none

/-- One principal is in a session. -/
def inSession : OmniSessionManager :=
  { OmniSessionManager.new 8 with
    sessions := (∅ : AList (fun _ : String => OmniSession)).insert "zaion1ab" (.new "zaion1ab" 8 ⟨"s-1", sampleNow⟩) }

/-- The replay fails, and the session is gone. -/
theorem failed_replay_clears : ¬ KeepsOnError inSession
    (replaySignedRouteEvents sampleHost inSession (fun _ => ⟨"s-2", sampleNow⟩) [nameless] none) := by
  intro keeps
  have signed : isSignedRoute none nameless = true := by decide
  have routes : routesToReplay [nameless] none = [nameless] := by simp [routesToReplay,signed]
  have unread : readable nameless = false := by decide
  obtain ⟨error, ran⟩ := replay_unread sampleHost inSession (fun _ => ⟨"s-2", sampleNow⟩)
    (by rw [routes]; simp [unread] : ¬ ∀ event ∈ routesToReplay [nameless] none, readable event = true)
  have same := keeps error (by rw [ran])
  rw [ran,routes,List.takeWhile_cons_of_neg (by simp [unread])] at same
  have gone := same.sessions "zaion1ab"
  rw [inSession,AList.lookup_insert] at gone
  cases gone

end Zaion.Omni
