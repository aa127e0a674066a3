import Zaion.Session.Frame

/-! A branch whose calls may fail. Each call is committed on its own and nothing is taken back: what stands before
`create_session` leaves no trace, what stands behind it leaves the child. -/
namespace Zaion.Session

open Lib Ledger

/-- The trait a brancher writes through. -/
structure SessionStore where
  getSession : String → Call (Option SessionMetadata)
  createSession : SessionMetadata → Call Unit
  updateSession : String → SessionMetadata → Call Unit
  getTitle : String → Call (Option String)
  setTitle : String → String → Call Unit
  copyHistory : String → String → Call Nat

/-- `branch_with_parent_end_reason` over any store. -/
def SessionStore.branchWithParentEndReason (store : SessionStore) (draw : BranchDraw) (request : BranchRequest)
    (parentEndReason : String) : Call BranchResult := do
  .check (ensure (trim parentEndReason ≠ "") (.message "parent end reason cannot be empty"))
  let found ← store.getSession request.parentSessionId
  let parent ← .check (required found
    (.message ("Parent session not found: " ++ request.parentSessionId)))
  .check (ensure (isUnsafePrincipal parent.principalId = false)
    (.message ("Parent session has non-production principal: " ++ parent.principalId)))
  .check (ensure (request.history ≠ []) (.message "Cannot branch empty conversation"))
  let parentTitle ← store.getTitle request.parentSessionId
  let newTitle := request.branchName.getD (generateLineageTitle (parentTitle.getD "Session"))
  store.createSession { parent with
    sessionId := draw.sessionId
    parentSessionId := some request.parentSessionId
    title := some newTitle
    endReason := none
    createdAt := draw.createdAt
    endedAt := none }
  store.setTitle draw.sessionId newTitle
  let turnsCopied ← store.copyHistory request.parentSessionId draw.sessionId
  store.updateSession request.parentSessionId { parent with
    endReason := some parentEndReason
    endedAt := some draw.endedAt }
  .ret { newSessionId := draw.sessionId, newTitle, parentSessionId := request.parentSessionId,
         turnsCopied }

/-- The calls that fail, each with its error: one for each statement a branch runs, and one for each append of
the copied history. -/
structure Faults where
  getSession : Option SessionError
  getTitle : Option SessionError
  createSession : Option SessionError
  setTitle : Option SessionError
  listEvents : Option SessionError
  append : Nat → Option SessionError
  updateSession : Option SessionError

/-- A call that fails leaves its database as it was. -/
def Call.failing (fault : Option SessionError) (call : Call α) : Call α :=
  match fault with
  | none => call
  | some e => .check (.error e)

/-- `copyEvents` where appends may fail. -/
def copyEventsFailing (host : Host) (keypair : Keypair) (draw : Draw) (faults : Nat → Option SessionError)
    (fromSession toSession : String) : List LedgerEvent → Nat → Call Nat
  | [], copied => .ret copied
  | source :: rest, copied => do
    let _ ← (copyEvents host keypair draw fromSession toSession [source] copied).failing (faults copied)
    copyEventsFailing host keypair draw faults fromSession toSession rest (copied + 1)

def Adapter.copyHistoryFailing (host : Host) (adapter : Adapter) (draw : Draw) (faults : Faults)
    (fromSession toSession : String) : Call Nat := do
  let keypair ← .check (required adapter.keypair (.message
    "SessionStoreAdapter::copy_history requires EventLedger for proof-preserving session history copy"))
  .check (ensure (trim fromSession ≠ "" ∧ trim toSession ≠ "")
    (.message "copy_history requires non-empty source and target session ids"))
  let events ← (Adapter.sourceEvents host fromSession).failing faults.listEvents
  copyEventsFailing host keypair draw faults.append fromSession toSession events.reverse 0

/-- `SessionStoreAdapter` over a database and a ledger that fail. -/
def Adapter.store (host : Host) (adapter : Adapter) (draw : BranchDraw) (faults : Faults) : SessionStore where
  getSession sessionId := (Adapter.getSession sessionId).failing faults.getSession
  createSession metadata := (adapter.createSession metadata).failing faults.createSession
  updateSession sessionId metadata := (adapter.updateSession sessionId metadata).failing faults.updateSession
  getTitle sessionId := (Adapter.getTitle sessionId).failing faults.getTitle
  setTitle sessionId title := (storeTitle sessionId title draw.titledAt).failing faults.setTitle
  copyHistory := adapter.copyHistoryFailing host draw.events faults

def noFaults : Faults := ⟨none, none, none, none, none, fun _ => none, none⟩

theorem copyEventsFailing_none (host : Host) (keypair : Keypair) (draw : Draw) (fromSession toSession : String)
    (sources : List LedgerEvent) (copied : Nat) :
    copyEventsFailing host keypair draw (fun _ => none) fromSession toSession sources copied =
      copyEvents host keypair draw fromSession toSession sources copied := by
  induction sources generalizing copied with
  | nil => rfl
  | cons source rest ih =>
    funext world
    rw [copyEventsFailing,copyEvents]
    simp only [Call.failing,bind,Call.andThen,copyEvents,ih]
    cases appendSignedEventWithParent host world.events (draw.eventId copied) (draw.createdAt copied) keypair toSession
      "session.history.copied" (copyPayload fromSession toSession source) source.runId (some source.eventId) with
    | ok inserted => rfl
    | error e => rfl

/-- Where nothing fails, this is the branch over the adapter. -/
theorem branch_noFaults (host : Host) (adapter : Adapter) (draw : BranchDraw) (request : BranchRequest) (reason : String) :
    (adapter.store host draw noFaults).branchWithParentEndReason draw request reason =
      branchWithParentEndReason host adapter draw request reason := by
  have copies : adapter.copyHistoryFailing host draw.events noFaults = adapter.copyHistory host draw.events := by
    funext fromSession toSession
    rw [Adapter.copyHistoryFailing,Adapter.copyHistory]
    simp only [noFaults,Call.failing,copyEventsFailing_none]
  rw [SessionStore.branchWithParentEndReason,branchWithParentEndReason,Adapter.store,copies]
  rfl

/-! Calls never take a session away -/

namespace Call

def Grows (call : Call α) : Prop := ∀ world, world.sessions.length ≤ (call world).2.sessions.length

theorem Grows.run {call : Call α} {result : Except SessionError α} {world world' : World} (grows : call.Grows)
    (h : call world = (result, world')) : world.sessions.length ≤ world'.sessions.length := by
  have grown := grows world
  rwa [h] at grown

theorem check_grows (result : Except SessionError α) : (check result).Grows := fun _ => Nat.le_refl _

theorem ret_grows (a : α) : (ret a).Grows := fun _ => Nat.le_refl _

theorem bind_grows {call : Call α} {next : α → Call β} (first : call.Grows) (then_ : ∀ a, (next a).Grows) :
    (call >>= next).Grows := by
  intro world
  have grown := first world
  simp only [bind,andThen]
  split
  · rename_i a middle ran
    rw [ran] at grown
    exact Nat.le_trans grown (then_ a middle)
  · rename_i e middle ran
    rw [ran] at grown
    exact grown

theorem failing_grows {call : Call α} (fault : Option SessionError) (grows : call.Grows) : (call.failing fault).Grows := by
  cases fault with
  | none => exact grows
  | some e => exact check_grows _

theorem failing_ok {call : Call α} {fault : Option SessionError} {world world' : World} {a : α}
    (h : call.failing fault world = (.ok a, world')) : fault = none ∧ call world = (.ok a, world') := by
  cases fault with
  | none => exact ⟨rfl, h⟩
  | some e => cases h

theorem failing_error {call : Call α} {fault : Option SessionError} {world world' : World} {e : SessionError}
    (h : call.failing fault world = (.error e, world')) :
    (fault ≠ none ∧ world' = world) ∨ (fault = none ∧ call world = (.error e, world')) := by
  cases fault with
  | none => exact .inr ⟨rfl, h⟩
  | some stop =>
    cases h
    exact .inl ⟨Option.some_ne_none _, rfl⟩

theorem bind_error {call : Call α} {next : α → Call β} {world world' : World} {e : SessionError}
    (h : (call >>= next) world = (.error e, world')) : call world = (.error e, world') ∨
      ∃ a middle, call world = (.ok a, middle) ∧ next a middle = (.error e, world') := by
  simp only [bind,andThen] at h
  split at h
  · rename_i a middle ran
    exact .inr ⟨a, middle, ran, h⟩
  · rename_i e' middle ran
    cases h
    exact .inl ran

theorem check_error {result : Except SessionError α} {world world' : World} {e : SessionError}
    (h : check result world = (.error e, world')) : result = .error e ∧ world' = world := by
  cases h
  exact ⟨rfl, rfl⟩

end Call

theorem upsertSession_grows (entry : SessionEntry) : (upsertSession entry).Grows := by
  intro world
  unfold upsertSession
  split
  · split
    · exact (List.length_map _).ge
    · exact List.length_append ▸ Nat.le_add_right _ _
  · exact Nat.le_refl _

theorem storeTitle_grows (sessionId title now : String) : (storeTitle sessionId title now).Grows := by
  intro world
  unfold storeTitle
  split
  · exact (List.length_map _).ge
  · exact Nat.le_refl _

theorem putSession_grows (adapter : Adapter) (sessionId : String) (metadata : SessionMetadata) :
    (adapter.putSession sessionId metadata).Grows :=
  Call.bind_grows (Call.check_grows _) fun _ => upsertSession_grows _

theorem copyEventsFailing_grows (host : Host) (keypair : Keypair) (draw : Draw) (faults : Nat → Option SessionError)
    (fromSession toSession : String) (sources : List LedgerEvent) (copied : Nat) :
    (copyEventsFailing host keypair draw faults fromSession toSession sources copied).Grows := by
  induction sources generalizing copied with
  | nil => exact Call.ret_grows _
  | cons source rest ih =>
    refine Call.bind_grows (Call.failing_grows _ fun world => ?_) fun _ => ih _
    exact (congrArg List.length (copyEvents_sessions [source] copied world)).ge

theorem copyHistoryFailing_grows (host : Host) (adapter : Adapter) (draw : Draw) (faults : Faults)
    (fromSession toSession : String) : (adapter.copyHistoryFailing host draw faults fromSession toSession).Grows := by
  refine Call.bind_grows (Call.check_grows _) fun keypair => Call.bind_grows (Call.check_grows _) fun _ => ?_
  refine Call.bind_grows (Call.failing_grows _ fun world => ?_) fun _ => copyEventsFailing_grows _ _ _ _ _ _ _ _
  exact (congrArg (fun after => after.sessions.length) (sourceEvents_world host fromSession world)).ge

/-! Failures before the child is created, and behind -/

/-- The principal a row is written for. -/
def Adapter.principalFor (adapter : Adapter) (principalId : String) : String :=
  if trim principalId = "" then adapter.principalId else principalId

/-- The branch comes to the child's row and writes it. -/
structure Admitted (adapter : Adapter) (draw : BranchDraw) (faults : Faults) (request : BranchRequest) (reason : String)
    (world : World) : Prop where
  named : trim reason ≠ ""
  read : faults.getSession = none
  parent : ∃ parent, lookupSession world.sessions request.parentSessionId = some parent ∧
    isUnsafePrincipal parent.principalId = false ∧ isUnsafePrincipal (adapter.principalFor parent.principalId) = false ∧
    keyFree world.sessions draw.sessionId (request.branchName.getD (generateLineageTitle parent.sessionKey)) = true
  history : request.history ≠ []
  title : faults.getTitle = none
  create : faults.createSession = none

section

variable {host : Host} {adapter : Adapter} {draw : BranchDraw} {faults : Faults} {request : BranchRequest} {reason : String}
  {world world' : World} {e : SessionError} {sessionId : String} {metadata : SessionMetadata} {u : Unit}

theorem upsertSession_free {entry : SessionEntry} (h : upsertSession entry world = (.ok u, world')) :
    keyFree world.sessions entry.sessionId entry.sessionKey = true := by
  unfold upsertSession at h
  split at h
  · assumption
  · cases h

theorem upsertSession_error {entry : SessionEntry} (h : upsertSession entry world = (.error e, world')) :
    keyFree world.sessions entry.sessionId entry.sessionKey ≠ true ∧ world' = world := by
  unfold upsertSession at h
  split at h
  · split at h
    · cases h
    · cases h
  · cases h
    exact ⟨by assumption, rfl⟩

/-- A row that is written has a safe principal and a free key. -/
theorem putSession_free (h : adapter.putSession sessionId metadata world = (.ok u, world')) :
    isUnsafePrincipal (adapter.principalFor metadata.principalId) = false ∧
      keyFree world.sessions sessionId (metadata.title.getD sessionId) = true := by
  obtain ⟨principalId, middle, known, written⟩ := Call.bind_ok h
  obtain ⟨safe, rfl⟩ := Call.check_ok known
  obtain ⟨_, safe, _⟩ := bind_ok_iff.mp safe
  exact ⟨ensure_ok_iff.mp safe, upsertSession_free written⟩

/-- A row that is refused leaves the table as it was. -/
theorem putSession_error (h : adapter.putSession sessionId metadata world = (.error e, world')) :
    ¬(isUnsafePrincipal (adapter.principalFor metadata.principalId) = false ∧
      keyFree world.sessions sessionId (metadata.title.getD sessionId) = true) ∧ world' = world := by
  obtain refused | ⟨principalId, middle, known, refused⟩ := Call.bind_error h
  · obtain ⟨stopped, same⟩ := Call.check_error refused
    refine ⟨fun ⟨safe, _⟩ => ?_, same⟩
    obtain stopped | ⟨_, _, stopped⟩ := bind_error_iff.mp stopped
    · exact (ensure_error_iff.mp stopped).1 safe
    · cases stopped
  · obtain ⟨_, rfl⟩ := Call.check_ok known
    obtain ⟨taken, same⟩ := upsertSession_error refused
    exact ⟨fun free => taken free.2, same⟩

/-- A branch that fails leaves the world as it was when it has not come to the child's row, and only then if the
child's id is new. -/
theorem branch_all_or_nothing (host : Host) (adapter : Adapter) (draw : BranchDraw) (faults : Faults)
    (request : BranchRequest) (reason : String) (world world' : World) (e : SessionError)
    (run : (adapter.store host draw faults).branchWithParentEndReason draw request reason world = (.error e, world')) :
    (¬Admitted adapter draw faults request reason world → world' = world) ∧
    (lookupSession world.sessions draw.sessionId = none → world' = world →
      ¬Admitted adapter draw faults request reason world) := by
  have refused : world' = world → ¬Admitted adapter draw faults request reason world →
      (¬Admitted adapter draw faults request reason world → world' = world) ∧
      (lookupSession world.sessions draw.sessionId = none → world' = world →
        ¬Admitted adapter draw faults request reason world) := fun same not => ⟨fun _ => same, fun _ _ => not⟩
  obtain stopped | ⟨_, w0, reasoned, run1⟩ := Call.bind_error run
  · obtain ⟨blank, rfl⟩ := Call.check_error stopped
    exact refused rfl fun admitted => (ensure_error_iff.mp blank).1 admitted.named
  obtain ⟨named, rfl⟩ := Call.check_ok reasoned
  obtain stopped | ⟨found, w1, got, run2⟩ := Call.bind_error run1
  · obtain ⟨fault, same⟩ | ⟨_, ran⟩ := Call.failing_error stopped
    · exact refused same fun admitted => fault admitted.read
    · cases ran
  obtain ⟨read, got⟩ := Call.failing_ok got
  obtain ⟨viewed, rfl⟩ := getSession_ok got
  obtain stopped | ⟨metadata, w2, known, run3⟩ := Call.bind_error run2
  · obtain ⟨missing, same⟩ := Call.check_error stopped
    refine refused same fun admitted => ?_
    obtain ⟨parent, there, _⟩ := admitted.parent
    rw [viewed,there] at missing
    cases missing
  obtain ⟨present, rfl⟩ := Call.check_ok known
  rw [viewed] at present
  obtain ⟨parent, there, rfl⟩ := Option.map_eq_some_iff.mp (required_ok_iff.mp present)
  have found_ : ∀ other, lookupSession w2.sessions request.parentSessionId = some other → other = parent :=
    fun other here => Option.some.inj (here.symm.trans there)
  obtain stopped | ⟨_, w3, safe, run4⟩ := Call.bind_error run3
  · obtain ⟨unsafe_, same⟩ := Call.check_error stopped
    refine refused same fun admitted => (ensure_error_iff.mp unsafe_).1 ?_
    obtain ⟨other, here, good, _⟩ := admitted.parent
    exact found_ other here ▸ good
  obtain ⟨isSafe, rfl⟩ := Call.check_ok safe
  obtain stopped | ⟨_, w4, spoken, run5⟩ := Call.bind_error run4
  · obtain ⟨silent, same⟩ := Call.check_error stopped
    exact refused same fun admitted => (ensure_error_iff.mp silent).1 admitted.history
  obtain ⟨speaks, rfl⟩ := Call.check_ok spoken
  obtain stopped | ⟨title, w5, titled, run6⟩ := Call.bind_error run5
  · obtain ⟨fault, same⟩ | ⟨_, ran⟩ := Call.failing_error stopped
    · exact refused same fun admitted => fault admitted.title
    · cases ran
  obtain ⟨entitled, titled⟩ := Call.failing_ok titled
  have key : title = (lookupSession w4.sessions request.parentSessionId).map SessionEntry.sessionKey := by
    cases titled
    rfl
  obtain rfl := getTitle_world titled
  rw [there] at key
  subst key
  obtain stopped | ⟨_, w6, created, run7⟩ := Call.bind_error run6
  · obtain ⟨fault, same⟩ | ⟨_, ran⟩ := Call.failing_error stopped
    · exact refused same fun admitted => fault admitted.create
    · obtain ⟨taken, same⟩ := putSession_error ran
      refine refused same fun admitted => taken ?_
      obtain ⟨other, here, _, good, free⟩ := admitted.parent
      obtain rfl := found_ other here
      exact ⟨good, free⟩
  obtain ⟨create, created⟩ := Call.failing_ok created
  obtain ⟨good, free⟩ := putSession_free created
  simp only [Option.map_some,Option.getD_some] at free
  have admitted : Admitted adapter draw faults request reason w5 := ⟨ensure_ok_iff.mp named, read,
    ⟨parent, there, ensure_ok_iff.mp isSafe, good, free⟩, ensure_ok_iff.mp speaks, entitled, create⟩
  refine ⟨fun not => absurd admitted not, fun absent same _ => ?_⟩
  obtain ⟨principalId, inserted⟩ := putSession_ok created
  have child := (upsertSession_ok inserted).1 absent
  have longer : w6.sessions.length ≤ world'.sessions.length := by
    refine Call.Grows.run ?_ run7
    refine Call.bind_grows (Call.failing_grows _ (storeTitle_grows _ _ _)) fun _ => ?_
    refine Call.bind_grows (copyHistoryFailing_grows _ _ _ _ _ _) fun copied => ?_
    exact Call.bind_grows (Call.failing_grows _ (putSession_grows _ _ _)) fun _ => Call.ret_grows _
  rw [same,child,List.length_append] at longer
  exact Nat.not_succ_le_self _ longer

end

/-- The database takes no new row. -/
def fullDisk : Faults := { noFaults with createSession := some (.message "database or disk is full") }

def namedRequest : BranchRequest := ⟨"20260101_000000_00000000", some "experiment", [⟨"user", "try it"⟩]⟩

theorem fullDisk_unchanged : ∃ e world', (aliceAdapter.store sampleHost noonDraw fullDisk).branchWithParentEndReason
      noonDraw namedRequest "branched" quietWorld = (.error e, world') ∧ world' = quietWorld := by
  have run : (aliceAdapter.store sampleHost noonDraw fullDisk).branchWithParentEndReason noonDraw namedRequest "branched"
      quietWorld = (.error (.message "database or disk is full"), quietWorld) := by
    simp [SessionStore.branchWithParentEndReason,Adapter.store,fullDisk,noFaults,Call.failing,Adapter.getSession,
      Adapter.getTitle,bind,Call.andThen,Call.check,alice_safe,branched_named,quietWorld,lookupSession,namedRequest]
  refine ⟨_, quietWorld, run, (branch_all_or_nothing sampleHost aliceAdapter noonDraw fullDisk namedRequest "branched"
    quietWorld quietWorld _ run).1 fun admitted => ?_⟩
  cases admitted.create

/-- `SessionStoreAdapter::new`, which has no ledger. -/
def storeOnly : Adapter := ⟨none, "zaion1alice"⟩

/-- Without a ledger the branch fails and the child stays. -/
theorem storeOnly_leaves_child : ∃ e world', (storeOnly.store sampleHost noonDraw noFaults).branchWithParentEndReason
      noonDraw namedRequest "branched" quietWorld = (.error e, world') ∧
    world'.sessions.length = quietWorld.sessions.length + 1 := by
  simp [SessionStore.branchWithParentEndReason,Adapter.store,noFaults,Call.failing,Adapter.getSession,
    Adapter.getTitle,Adapter.createSession,Adapter.putSession,Adapter.principalForMetadata,Adapter.copyHistoryFailing,
    bind,Call.andThen,Call.check,Except.bind,alice_safe,alice_named,branched_named,upsertSession,storeTitle,keyFree,quietWorld,
    lookupSession,noonDraw,namedRequest,storeOnly]

end Zaion.Session
