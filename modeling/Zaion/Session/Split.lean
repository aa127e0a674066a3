import Zaion.Session.Branch
import Zaion.Sample

/-! `CompressionSplitter` and the reader a resumed session uses. The compressed turns go
into the branch request and from there nowhere: the child gets the parent's events. -/
namespace Zaion.Session

open Lib Ledger

structure CompressionSplitRequest where
  currentSessionId : String
  history : List Turn
  tokenBudget : Nat
  forceCompression : Bool
  llmSummary : Option String

structure CompressionSplitResult where
  newSessionId : Option String
  compressed : CompressedContext
  splitPerformed : Bool
  parentSessionId : Option String
  deriving DecidableEq

/-- `nonce` is the first eight characters of a fresh uuid. -/
def splitCompressed (host : Host) (adapter : Adapter) (draw : BranchDraw) (nonce : String)
    (request : CompressionSplitRequest) (compressed : CompressedContext) : Call CompressionSplitResult :=
  if compressed.wasCompressed then do
    let branch ← branchWithParentEndReason host adapter draw {
      parentSessionId := request.currentSessionId
      branchName := some ("compression:" ++ request.currentSessionId ++ ":" ++ nonce)
      history := compressed.turns } "compression"
    .ret { newSessionId := some branch.newSessionId, compressed, splitPerformed := true,
           parentSessionId := some request.currentSessionId }
  else .ret { newSessionId := none, compressed, splitPerformed := false, parentSessionId := none }

/-- The pass a request asks for. -/
def compressFor (compressor : ContextCompressor) (request : CompressionSplitRequest) : CompressedContext :=
  if request.forceCompression then
    (compressor.compressForced request.history request.tokenBudget request.llmSummary).2
  else (compressor.compress request.history request.tokenBudget request.llmSummary).2

def compressAndSplit (host : Host) (compressor : ContextCompressor) (adapter : Adapter)
    (draw : BranchDraw) (nonce : String) (request : CompressionSplitRequest) :
    Call CompressionSplitResult :=
  splitCompressed host adapter draw nonce request (compressFor compressor request)

def compressAndSplitWithTodoReinjection (host : Host) (compressor : ContextCompressor)
    (adapter : Adapter) (draw : BranchDraw) (nonce : String) (request : CompressionSplitRequest)
    (todoContext : Option String) : Call CompressionSplitResult :=
  splitCompressed host adapter draw nonce request
    (ContextCompressor.reinjectTodos (compressFor compressor request) todoContext)

/-- Whether an event of another thread, or of none, is skipped. -/
def otherThread (payload : Json) (key : String) : Option String → Bool
  | none => false
  | some thread => decide (payload.textAt [key] ≠ some thread)

/-- A text field that is present and not empty. -/
def filledText (payload : Json) (key : String) : Option String :=
  (payload.textAt [key]).filter (fun text => decide (text ≠ ""))

/-- One round of the loop of `load_chat_history`: pairs so far and the message that waits. -/
def pairEvent (threadId : Option String) (state : List (String × String) × Option String)
    (event : LedgerEvent) : List (String × String) × Option String :=
  if event.eventType = "channel.received" then
    if otherThread event.payload "thread_id" threadId then state
    else (state.1, (filledText event.payload "message").or state.2)
  else if event.eventType = "channel.sent" then
    match state.2 with
    | none => state
    | some message =>
      if otherThread event.payload "to" threadId then (state.1, none)
      else match filledText event.payload "response" with
        | none => (state.1, none)
        | some response => (state.1 ++ [(message, response)], none)
  else state

/-- `load_chat_history`; a ledger that cannot be read counts as empty. -/
def loadChatHistory (host : Host) (rows : List EventRow) (namespaceKey : String) (turns : Nat)
    (threadId : Option String) : List Turn :=
  let limit := (turns * 2 + 4) * if threadId.isSome then 4 else 1
  let events := match listEvents host rows namespaceKey limit with
    | .ok events => events
    | .error _ => []
  let pairs := (events.reverse.foldl (pairEvent threadId) ([], none)).1
  (pairs.drop (pairs.length - turns)).flatMap (fun pair => [⟨"user", pair.1⟩, ⟨"assistant", pair.2⟩])

theorem loadChatHistory_roles {host : Host} {rows : List EventRow} {namespaceKey : String} {turns : Nat}
    {threadId : Option String} :
    ∀ turn ∈ loadChatHistory host rows namespaceKey turns threadId, turn.role ≠ "system" := by
  intro turn member
  simp only [loadChatHistory,List.mem_flatMap] at member
  obtain ⟨pair, _, member⟩ := member
  simp only [List.mem_cons,List.not_mem_nil,or_false] at member
  rcases member with rfl | rfl <;> simp

/-- A session resumed under this id reads these turns, for some window and thread. -/
def ResumesWith (host : Host) (rows : List EventRow) (sessionId : String) (turns : List Turn) : Prop :=
  ∃ window threadId, loadChatHistory host rows sessionId window threadId = turns

theorem compressFor_summary {compressor : ContextCompressor} {request : CompressionSplitRequest}
    (compressed : (compressFor compressor request).wasCompressed = true) :
    ∃ turn ∈ (compressFor compressor request).turns, turn.role = "system" := by
  unfold compressFor at compressed ⊢
  split
  next force =>
    rw [if_pos force] at compressed
    exact ContextCompressor.compressInternal_summary compressed
  next force =>
    rw [if_neg force] at compressed
    exact ContextCompressor.compressInternal_summary compressed

/-- A row that points at an event of the parent session. -/
def IsCopy (host : Host) (fromSession toSession : String) (source : LedgerEvent) (row : EventRow) : Prop :=
  row.namespaceKey = toSession ∧ row.eventType = "session.history.copied" ∧
    row.payloadJson = host.toText (copyPayload fromSession toSession source)

theorem append_reject {host : Host} {rows : List EventRow} {event : PreparedEvent}
    {result : List EventRow × Bool}
    (h : appendPreparedEventInTransaction host rows event .reject = .ok result) :
    ∃ seqNum prevHash, result.1 = rows ++ [event.row seqNum prevHash] := by
  unfold appendPreparedEventInTransaction at h
  split at h
  · simp only [bind_ok_iff,ensure_ok_iff] at h
    obtain ⟨_, same, _⟩ := h
    exact same.elim
  · simp only [bind_ok_iff] at h
    obtain ⟨position, _, rows', inserted, h⟩ := h
    cases h
    exact ⟨_, _, (insertRow_ok inserted).1⟩

theorem copyEvents_ok {host : Host} {keypair : Keypair} {draw : Draw} {fromSession toSession : String}
    {sources : List LedgerEvent} {n copied : Nat} {world world' : World}
    (h : copyEvents host keypair draw fromSession toSession sources n world = (.ok copied, world')) :
    ∃ copies, world'.events = world.events ++ copies ∧
      List.Forall₂ (IsCopy host fromSession toSession) sources copies := by
  induction sources generalizing n world with
  | nil =>
    cases h
    exact ⟨[], by simp, .nil⟩
  | cons source rest ih =>
    simp only [copyEvents] at h
    split at h
    next events inserted append =>
      obtain ⟨seqNum, prevHash, grown⟩ := append_reject append
      obtain ⟨copies, more, pairs⟩ := ih h
      simp only at grown more
      rw [grown,List.append_assoc] at more
      exact ⟨_ :: copies, more, .cons ⟨rfl, rfl, rfl⟩ pairs⟩
    next => cases h

theorem copyHistory_ok {host : Host} {adapter : Adapter} {draw : Draw} {fromSession toSession : String}
    {copied : Nat} {world world' : World}
    (h : adapter.copyHistory host draw fromSession toSession world = (.ok copied, world')) :
    ∃ sources copies, listEvents host world.events fromSession 10000 = .ok sources ∧
      world'.events = world.events ++ copies ∧
      List.Forall₂ (IsCopy host fromSession toSession) sources.reverse copies := by
  obtain ⟨keypair, w1, known, h⟩ := Call.bind_ok h
  obtain ⟨_, w2, named, h⟩ := Call.bind_ok h
  obtain ⟨events, w3, listed, h⟩ := Call.bind_ok h
  obtain ⟨_, rfl⟩ := Call.check_ok known
  obtain ⟨_, rfl⟩ := Call.check_ok named
  unfold Adapter.sourceEvents at listed
  split at listed
  next sources read =>
    cases listed
    obtain ⟨copies, grown, pairs⟩ := copyEvents_ok h
    exact ⟨events, copies, read, grown, pairs⟩
  next => cases listed

theorem upsertSession_events (entry : SessionEntry) (world : World) :
    (upsertSession entry world).2.events = world.events := by
  unfold upsertSession
  split
  · split <;> rfl
  · rfl

theorem storeTitle_events {sessionId title now : String} {world world' : World} {u : Unit}
    (h : storeTitle sessionId title now world = (.ok u, world')) : world'.events = world.events := by
  unfold storeTitle at h
  split at h
  · cases h; rfl
  · cases h

theorem putSession_events {adapter : Adapter} {sessionId : String} {metadata : SessionMetadata}
    {world world' : World} {u : Unit}
    (h : adapter.putSession sessionId metadata world = (.ok u, world')) : world'.events = world.events := by
  obtain ⟨principal, middle, first, second⟩ := Call.bind_ok h
  obtain ⟨_, rfl⟩ := Call.check_ok first
  rw [← upsertSession_events _ middle,second]

/-- A branch leaves the parent's events and adds one copy of each to the child. -/
theorem branch_events {host : Host} {adapter : Adapter} {draw : BranchDraw} {request : BranchRequest}
    {reason : String} {result : BranchResult} {world world' : World}
    (h : branchWithParentEndReason host adapter draw request reason world = (.ok result, world')) :
    result.newSessionId = draw.sessionId ∧
    ∃ sources copies, listEvents host world.events request.parentSessionId 10000 = .ok sources ∧
      world'.events = world.events ++ copies ∧
      List.Forall₂ (IsCopy host request.parentSessionId draw.sessionId) sources.reverse copies := by
  obtain ⟨_, w0, reasoned, h⟩ := Call.bind_ok h
  obtain ⟨found, w1, got, h⟩ := Call.bind_ok h
  obtain ⟨parent, w2, known, h⟩ := Call.bind_ok h
  obtain ⟨_, w3, safe, h⟩ := Call.bind_ok h
  obtain ⟨_, w4, nonempty, h⟩ := Call.bind_ok h
  obtain ⟨title, w5, named, h⟩ := Call.bind_ok h
  obtain ⟨_, w6, created, h⟩ := Call.bind_ok h
  obtain ⟨_, w7, titled, h⟩ := Call.bind_ok h
  obtain ⟨copied, w8, history, h⟩ := Call.bind_ok h
  obtain ⟨_, w9, updated, h⟩ := Call.bind_ok h
  obtain ⟨rfl, rfl⟩ := Call.ret_ok h
  obtain ⟨_, rfl⟩ := Call.check_ok reasoned
  obtain ⟨_, rfl⟩ := Call.check_ok known
  obtain ⟨_, rfl⟩ := Call.check_ok safe
  obtain ⟨_, rfl⟩ := Call.check_ok nonempty
  have same : w5.events = w0.events := by
    cases named; cases got; rfl
  obtain ⟨sources, copies, listed, grown, pairs⟩ := copyHistory_ok history
  have before : w7.events = w0.events :=
    (storeTitle_events titled).trans ((putSession_events created).trans same)
  rw [before] at listed grown
  exact ⟨rfl, sources, copies, listed, (putSession_events updated).trans grown, pairs⟩

/-- What a split leaves in the ledger: pointers to the parent's events, and no turn of the
compressed history. -/
def Misses (host : Host) (request : CompressionSplitRequest) (world world' : World)
    (result : CompressionSplitResult) : Prop :=
  ∃ child, result.newSessionId = some child ∧
    ¬ ResumesWith host world'.events child result.compressed.turns ∧
    ∃ sources copies, listEvents host world.events request.currentSessionId 10000 = .ok sources ∧
      world'.events = world.events ++ copies ∧
      List.Forall₂ (IsCopy host request.currentSessionId child) sources.reverse copies

theorem splitCompressed_misses {host : Host} {adapter : Adapter} {draw : BranchDraw} {nonce : String}
    {request : CompressionSplitRequest} {compressed : CompressedContext} {world world' : World}
    {result : CompressionSplitResult}
    (summary : compressed.wasCompressed = true → ∃ turn ∈ compressed.turns, turn.role = "system")
    (h : splitCompressed host adapter draw nonce request compressed world = (.ok result, world'))
    (split : result.splitPerformed = true) : Misses host request world world' result := by
  unfold splitCompressed at h
  by_cases was : compressed.wasCompressed = true
  · rw [if_pos was] at h
    obtain ⟨branch, middle, branched, h⟩ := Call.bind_ok h
    obtain ⟨rfl, rfl⟩ := Call.ret_ok h
    obtain ⟨child, sources, copies, listed, grown, pairs⟩ := branch_events branched
    refine ⟨draw.sessionId, by rw [child], ?_, sources, copies, listed, grown, pairs⟩
    rintro ⟨window, threadId, reads⟩
    obtain ⟨turn, member, system⟩ := summary was
    exact loadChatHistory_roles turn (reads ▸ member) system
  · rw [if_neg was] at h
    obtain ⟨rfl, rfl⟩ := Call.ret_ok h
    cases split

/-- Every split that is performed stores something else than the compressed history it
returns. -/
theorem split_misses_compressed_history (host : Host) (compressor : ContextCompressor) (adapter : Adapter)
    (draw : BranchDraw) (nonce : String) (request : CompressionSplitRequest) (world world' : World)
    (result : CompressionSplitResult)
    (performed : result.splitPerformed = true)
    (run : compressAndSplit host compressor adapter draw nonce request world = (.ok result, world') ∨
      ∃ todoContext, compressAndSplitWithTodoReinjection host compressor adapter draw nonce request
        todoContext world = (.ok result, world')) :
    Misses host request world world' result := by
  rcases run with plain | ⟨todoContext, reinjected⟩
  · exact splitCompressed_misses compressFor_summary plain performed
  · refine splitCompressed_misses ?_ reinjected performed
    intro was
    rw [ContextCompressor.reinjectTodos_wasCompressed] at was
    exact ContextCompressor.reinjectTodos_summary todoContext (compressFor_summary was)

/-- One session of `zaion1alice` and a ledger without events. -/
def quietWorld : World where
  sessions := [{
    sessionId := "20260101_000000_00000000", principalId := "zaion1alice", platform := "cli"
    chatId := "default", userId := none, threadId := none, sessionKey := "Session"
    createdAt := "2026-01-01T00:00:00.000Z", updatedAt := "2026-01-01T00:00:00.000Z"
    messageCount := 0, toolCallCount := 0, estimatedCostUsd := 0, memoryFlushed := false
    wasAutoReset := false, autoResetReason := none, parentSessionId := none, endReason := none }]
  events := []

/-- Ratios 0.50, 0.20, 0.20 and 0.10 on whole tokens; one turn protected at each end. -/
def smallCompressor : ContextCompressor where
  config := {
    threshold := fun n => n / 2, target := fun n => n / 5, summaryShare := fun n => n / 5
    reduces := fun removed before => decide (before ≤ 10 * removed)
    protectLastNTurns := 1, protectFirstNTurns := 1, minSummaryTokens := 2000, maxSummaryTokens := 12000 }
  previousSummary := none

def longRequest : CompressionSplitRequest where
  currentSessionId := "20260101_000000_00000000"
  history := [⟨"user", "please list the files"⟩, ⟨"assistant", "there are two of them"⟩,
    ⟨"user", "now read the first one"⟩, ⟨"assistant", "it is empty"⟩, ⟨"user", "and the other one"⟩]
  tokenBudget := 20
  forceCompression := false
  llmSummary := some "The user looks at two files."

def noonDraw : BranchDraw where
  sessionId := "20260101_120000_9f8e7d6c"
  createdAt := "2026-01-01T12:00:00.000Z"
  titledAt := "2026-01-01T12:00:00Z"
  endedAt := "2026-01-01T12:00:00.001Z"
  events := ⟨fun _ => "evt-1", fun _ => "2026-01-01T12:00:00.000Z"⟩

def aliceAdapter : Adapter := ⟨some ⟨[1], [1]⟩, "zaion1alice"⟩

theorem longRequest_compressed : (compressFor smallCompressor longRequest).wasCompressed = true := by decide

/-! Texts the sample sessions are made of. -/

theorem alice_safe : isUnsafePrincipal "zaion1alice" = false := by decide

theorem alice_named : trim "zaion1alice" ≠ "" := by decide

theorem compression_named : trim "compression" ≠ "" := by decide

theorem branched_named : trim "branched" ≠ "" := by decide

theorem quiet_named : trim "20260101_000000_00000000" ≠ "" := by decide

theorem noon_named : trim "20260101_120000_9f8e7d6c" ≠ "" := by decide

/-- A branch of the one session goes through. -/
theorem quietWorld_branches (name : String) {history : List Turn} (fresh : name ≠ "Session")
    (nonempty : history ≠ []) : ∃ result world',
    branchWithParentEndReason sampleHost aliceAdapter noonDraw
      ⟨"20260101_000000_00000000", some name, history⟩ "compression" quietWorld = (.ok result, world') := by
  simp [branchWithParentEndReason,Adapter.getSession,Adapter.getTitle,Adapter.createSession,
    Adapter.updateSession,Adapter.putSession,Adapter.principalForMetadata,Adapter.copyHistory,
    Adapter.sourceEvents,listEvents,mapAll,copyEvents,bind,Call.andThen,Call.check,Call.ret,
    Except.bind,alice_safe,alice_named,compression_named,quiet_named,noon_named,nonempty,upsertSession,storeTitle,keyFree,quietWorld,
    fresh,fresh.symm,lookupSession,noonDraw,aliceAdapter]

/-- The request splits the session. -/
theorem longRequest_splits : ∃ result world',
    compressAndSplit sampleHost smallCompressor aliceAdapter noonDraw "1a2b3c4d" longRequest quietWorld =
      (.ok result, world') ∧ result.splitPerformed = true := by
  obtain ⟨turn, member, _⟩ := compressFor_summary longRequest_compressed
  obtain ⟨branch, world', branched⟩ := quietWorld_branches
    "compression:20260101_000000_00000000:1a2b3c4d" (by decide) (List.ne_nil_of_mem member)
  refine ⟨⟨some branch.newSessionId, compressFor smallCompressor longRequest, true,
    some longRequest.currentSessionId⟩, world', ?_, rfl⟩
  rw [compressAndSplit,splitCompressed,if_pos longRequest_compressed]
  exact Call.bind_run branched

theorem split_misses_long_request : ∃ result world', result.splitPerformed = true ∧
    Misses sampleHost longRequest quietWorld world' result := by
  obtain ⟨result, world', run, performed⟩ := longRequest_splits
  exact ⟨result, world', performed, split_misses_compressed_history sampleHost smallCompressor aliceAdapter
    noonDraw "1a2b3c4d" longRequest quietWorld world' result performed (.inl run)⟩

/-- The child of this split resumes without the compressed history. -/
theorem long_request_child_resumes_otherwise : ∃ result world',
    compressAndSplit sampleHost smallCompressor aliceAdapter noonDraw "1a2b3c4d" longRequest quietWorld =
      (.ok result, world') ∧ result.splitPerformed = true ∧
    ∀ child, result.newSessionId = some child →
      ¬ ResumesWith sampleHost world'.events child result.compressed.turns := by
  obtain ⟨result, world', run, performed⟩ := longRequest_splits
  refine ⟨result, world', run, performed, ?_⟩
  obtain ⟨child, named, misses, _⟩ := splitCompressed_misses compressFor_summary run performed
  intro child' same
  rw [named] at same
  cases same
  exact misses

end Zaion.Session
