import Zaion.Ledger.Chain
import Zaion.Session.Compressor

/-! The session table, the adapter that joins it to the ledger, and `SessionBrancher`.
Each call of the adapter is a transaction of its own: what a branch did before a
failing step stays. -/
namespace Zaion.Session

open Lib Ledger

structure SessionEntry where
  sessionId : String
  principalId : String
  platform : String
  chatId : String
  userId : Option String
  threadId : Option String
  sessionKey : String
  createdAt : String
  updatedAt : String
  messageCount : Int
  toolCallCount : Int
  /-- `estimated_cost_usd`, the bits of a double. -/
  estimatedCostUsd : UInt64
  memoryFlushed : Bool
  wasAutoReset : Bool
  autoResetReason : Option String
  parentSessionId : Option String
  endReason : Option String
  deriving DecidableEq

inductive SessionError where
  | message (text : String)
  | ledger (error : LedgerError)
  | sqliteConstraint
  deriving DecidableEq, Repr

/-- The session table and the ledger the adapter holds. -/
structure World where
  sessions : List SessionEntry
  events : List EventRow

/-- A call: its result, and the world it leaves behind whether it fails or not. -/
def Call (α : Type) : Type := World → Except SessionError α × World

namespace Call

def ret (a : α) : Call α := fun world => (.ok a, world)

/-- A check or a lookup that does not touch the world. -/
def check (result : Except SessionError α) : Call α := fun world => (result, world)

def andThen (call : Call α) (next : α → Call β) : Call β := fun world =>
  match call world with
  | (.ok a, world) => next a world
  | (.error e, world) => (.error e, world)

instance : Monad Call where
  pure := ret
  bind := andThen

theorem bind_ok {call : Call α} {next : α → Call β} {world world' : World} {b : β}
    (h : (call >>= next) world = (.ok b, world')) :
    ∃ a middle, call world = (.ok a, middle) ∧ next a middle = (.ok b, world') := by
  simp only [bind,andThen] at h
  split at h
  next a middle first => exact ⟨a, middle, first, h⟩
  next => cases h

theorem bind_run {call : Call α} {next : α → Call β} {world middle : World} {a : α}
    (h : call world = (.ok a, middle)) : (call >>= next) world = next a middle := by
  simp only [bind,andThen,h]

theorem check_ok {result : Except SessionError α} {world world' : World} {a : α}
    (h : check result world = (.ok a, world')) : result = .ok a ∧ world' = world := by
  cases h; exact ⟨rfl, rfl⟩

theorem ret_ok {a b : α} {world world' : World} (h : ret a world = (.ok b, world')) :
    b = a ∧ world' = world := by
  cases h; exact ⟨rfl, rfl⟩

end Call

def lookupSession (sessions : List SessionEntry) (sessionId : String) : Option SessionEntry :=
  sessions.find? (fun entry => decide (entry.sessionId = sessionId))

/-- What `ON CONFLICT(session_id) DO UPDATE` makes of the row there. -/
def mergeEntry (old new : SessionEntry) : SessionEntry := { old with
  sessionKey := new.sessionKey
  updatedAt := new.updatedAt
  messageCount := new.messageCount
  toolCallCount := new.toolCallCount
  estimatedCostUsd := new.estimatedCostUsd
  memoryFlushed := new.memoryFlushed
  parentSessionId := new.parentSessionId.or old.parentSessionId
  endReason := new.endReason.or old.endReason }

/-- No other session has the key: `session_key TEXT NOT NULL UNIQUE`. -/
def keyFree (sessions : List SessionEntry) (sessionId sessionKey : String) : Bool :=
  sessions.all (fun entry => decide (entry.sessionId = sessionId) || decide (entry.sessionKey ≠ sessionKey))

/-- `SessionStore::upsert_session`. -/
def upsertSession (entry : SessionEntry) : Call Unit := fun world =>
  if keyFree world.sessions entry.sessionId entry.sessionKey then
    match lookupSession world.sessions entry.sessionId with
    | some _ => (.ok (), { world with sessions := world.sessions.map (fun old =>
        if old.sessionId = entry.sessionId then mergeEntry old entry else old) })
    | none => (.ok (), { world with sessions := world.sessions ++ [entry] })
  else (.error .sqliteConstraint, world)

def storeTitle (sessionId title now : String) : Call Unit := fun world =>
  if keyFree world.sessions sessionId title || (lookupSession world.sessions sessionId).isNone then
    (.ok (), { world with sessions := world.sessions.map (fun old =>
      if old.sessionId = sessionId then { old with sessionKey := title, updatedAt := now } else old) })
  else (.error .sqliteConstraint, world)

structure SessionMetadata where
  principalId : String
  sessionId : String
  parentSessionId : Option String
  title : Option String
  model : String
  source : String
  chatId : Option String
  userId : Option String
  threadId : Option String
  endReason : Option String
  createdAt : String
  endedAt : Option String
  deriving DecidableEq

/-- `SessionStoreAdapter`; a ledger and a keypair come together or not at all. -/
structure Adapter where
  keypair : Option Keypair
  principalId : String

def isUnsafePrincipal (principal : String) : Bool :=
  ["default", "default_principal", "unbound", "unbound-principal", "anonymous", "ephemeral",
    "principal_placeholder"].contains (toAsciiLowercase (trim principal))

namespace Adapter

def getSession (sessionId : String) : Call (Option SessionMetadata) := fun world =>
  (.ok ((lookupSession world.sessions sessionId).map (fun entry => {
    principalId := entry.principalId
    sessionId := entry.sessionId
    parentSessionId := entry.parentSessionId
    title := some entry.sessionKey
    model := "unknown"
    source := entry.platform
    chatId := some entry.chatId
    userId := entry.userId
    threadId := entry.threadId
    endReason := entry.endReason
    createdAt := entry.createdAt
    endedAt := none })), world)

def principalForMetadata (adapter : Adapter) (metadata : SessionMetadata) :
    Except SessionError String := do
  let principal := if trim metadata.principalId = "" then adapter.principalId else metadata.principalId
  ensure (isUnsafePrincipal principal = false)
    (SessionError.message ("session metadata principal is not production-safe: " ++ principal))
  .ok principal

/-- `create_session`, and `update_session` at an id given by the caller. -/
def putSession (adapter : Adapter) (sessionId : String) (metadata : SessionMetadata) : Call Unit := do
  let principalId ← .check (adapter.principalForMetadata metadata)
  upsertSession {
    sessionId, principalId
    platform := metadata.source
    chatId := metadata.chatId.getD "default"
    userId := metadata.userId
    threadId := metadata.threadId
    sessionKey := metadata.title.getD sessionId
    createdAt := metadata.createdAt
    updatedAt := metadata.createdAt
    messageCount := 0
    toolCallCount := 0
    estimatedCostUsd := 0
    memoryFlushed := false
    wasAutoReset := false
    autoResetReason := none
    parentSessionId := metadata.parentSessionId
    endReason := metadata.endReason }

def createSession (adapter : Adapter) (metadata : SessionMetadata) : Call Unit :=
  adapter.putSession metadata.sessionId metadata

def updateSession (adapter : Adapter) (sessionId : String) (metadata : SessionMetadata) : Call Unit :=
  adapter.putSession sessionId metadata

def getTitle (sessionId : String) : Call (Option String) := fun world =>
  (.ok ((lookupSession world.sessions sessionId).map SessionEntry.sessionKey), world)

end Adapter

/-- `EventLedger::list_events` without a type: the newest rows of a namespace. -/
def listEvents (host : Host) (rows : List EventRow) (namespaceKey : String) (limit : Nat) :
    Except LedgerError (List LedgerEvent) :=
  mapAll (rowToEvent host) (((rows.filter (fun row => decide (row.namespaceKey = namespaceKey))).mergeSort
    (fun a b => decide (b.seqNum ≤ a.seqNum))).take limit)

/-- The lineage pointer that stands for a copied event. -/
def copyPayload (fromSession toSession : String) (source : LedgerEvent) : Json := .obj [
  ("schema", .str "zaion.session_history_copy.v1"),
  ("from_session", .str fromSession),
  ("to_session", .str toSession),
  ("source_event_id", .str source.eventId),
  ("source_event_type", .str source.eventType),
  ("source_namespace_key", .str source.namespaceKey),
  ("source_run_id", .ofOption .str source.runId),
  ("source_parent_event_id", .ofOption .str source.parentEventId),
  ("source_created_at", .str source.createdAt),
  ("source_signature_present", .bool source.signature.isSome),
  ("source_payload", source.payload),
  ("copy_policy", .str "lineage_pointer")]

/-- What a call draws from its surroundings: for each append a fresh id and the time. -/
structure Draw where
  eventId : Nat → String
  createdAt : Nat → String

/-- The loop of `copy_history`, one append for each source event. -/
def copyEvents (host : Host) (keypair : Keypair) (draw : Draw) (fromSession toSession : String) :
    List LedgerEvent → Nat → Call Nat
  | [], copied => .ret copied
  | source :: rest, copied => fun world =>
    match appendSignedEventWithParent host world.events (draw.eventId copied) (draw.createdAt copied)
        keypair toSession "session.history.copied" (copyPayload fromSession toSession source)
        source.runId (some source.eventId) with
    | .ok (events, _) =>
      copyEvents host keypair draw fromSession toSession rest (copied + 1) { world with events }
    | .error e => (.error (.ledger e), world)

/-- The newest events of a session, read through the adapter. -/
def Adapter.sourceEvents (host : Host) (sessionId : String) : Call (List LedgerEvent) := fun world =>
  match listEvents host world.events sessionId 10000 with
  | .ok events => (.ok events, world)
  | .error e => (.error (.ledger e), world)

def Adapter.copyHistory (host : Host) (adapter : Adapter) (draw : Draw) (fromSession toSession : String) :
    Call Nat := do
  let keypair ← .check (required adapter.keypair (.message
    "SessionStoreAdapter::copy_history requires EventLedger for proof-preserving session history copy"))
  .check (ensure (trim fromSession ≠ "" ∧ trim toSession ≠ "")
    (.message "copy_history requires non-empty source and target session ids"))
  let events ← Adapter.sourceEvents host fromSession
  copyEvents host keypair draw fromSession toSession events.reverse 0

structure BranchRequest where
  parentSessionId : String
  branchName : Option String
  history : List Turn

structure BranchResult where
  newSessionId : String
  newTitle : String
  parentSessionId : String
  turnsCopied : Nat
  deriving DecidableEq

/-- `rfind(" #")` and the number behind it: base text and lineage number. -/
def lineageNumber (title : String) : Option (String × Nat) :=
  let chars := title.toList
  let starts := (List.range chars.length).filter (fun i => decide ([' ', '#'] <+: chars.drop i))
  match starts.getLast? with
  | none => none
  | some i =>
    let digits := chars.drop (i + 2)
    let digits := if digits.head? = some '+' then digits.drop 1 else digits
    if digits ≠ [] ∧ digits.all Char.isDigit ∧ Nat.ofDigitChars 10 digits 0 < 2 ^ 32 then
      some (String.ofList (chars.take i), Nat.ofDigitChars 10 digits 0)
    else none

/-- `num + 1` overflows, and panics in a checked build, at the last `u32`. -/
def generateLineageTitle (parentTitle : String) : String :=
  match lineageNumber parentTitle with
  | some (base, n) => base ++ " #" ++ toString ((n + 1) % 2 ^ 32)
  | none => parentTitle ++ " #2"

/-- The texts a branch draws: the new session id and three readings of the clock. -/
structure BranchDraw where
  sessionId : String
  createdAt : String
  titledAt : String
  endedAt : String
  events : Draw

/-- `SessionBrancher::branch_with_parent_end_reason` over the adapter. -/
def branchWithParentEndReason (host : Host) (adapter : Adapter) (draw : BranchDraw)
    (request : BranchRequest) (parentEndReason : String) : Call BranchResult := do
  .check (ensure (trim parentEndReason ≠ "") (.message "parent end reason cannot be empty"))
  let found ← Adapter.getSession request.parentSessionId
  let parent ← .check (required found
    (.message ("Parent session not found: " ++ request.parentSessionId)))
  .check (ensure (isUnsafePrincipal parent.principalId = false)
    (.message ("Parent session has non-production principal: " ++ parent.principalId)))
  .check (ensure (request.history ≠ []) (.message "Cannot branch empty conversation"))
  let parentTitle ← Adapter.getTitle request.parentSessionId
  let newTitle := request.branchName.getD (generateLineageTitle (parentTitle.getD "Session"))
  adapter.createSession { parent with
    sessionId := draw.sessionId
    parentSessionId := some request.parentSessionId
    title := some newTitle
    endReason := none
    createdAt := draw.createdAt
    endedAt := none }
  storeTitle draw.sessionId newTitle draw.titledAt
  let turnsCopied ← adapter.copyHistory host draw.events request.parentSessionId draw.sessionId
  adapter.updateSession request.parentSessionId { parent with
    endReason := some parentEndReason
    endedAt := some draw.endedAt }
  .ret { newSessionId := draw.sessionId, newTitle, parentSessionId := request.parentSessionId,
         turnsCopied }

end Zaion.Session
