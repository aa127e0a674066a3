import Zaion.Host
import Zaion.Lib.Chain
import Zaion.Lib.Checked
import Zaion.Lib.Hex

/-! The `events` table of the ledger and its one append routine. The table is the
list of its rows in insertion order. A write takes what the process draws from its
surroundings (a fresh uuid, the current time) as arguments, and a failed write
rolls its transaction back. -/
namespace Zaion.Ledger

open Lib

/-- Columns `event_id`, .., `prev_hash` of `events`. -/
structure EventRow where
  eventId : String
  principalId : String
  namespaceKey : String
  runId : Option String
  eventType : String
  payloadJson : String
  signatureHex : Option String
  createdAt : String
  seqNum : Int
  prevHash : String
  parentEventId : Option String
  deriving DecidableEq

inductive LedgerError where
  | sqliteConstraint
  | sqliteFull
  | corruptChain (detail : String)
  | corruptPayload (eventId : String)
  | notFound (eventId : String)
  | invalidIdempotencyKey
  | eventIdConflict (eventId : String)
  | eventBindingPrincipalMismatch (expected derived : String)
  | eventBindingMismatch (field : String)
  | eventBindingSignatureInvalid
  | eventBindingNonCanonicalSignature
  deriving DecidableEq, Repr

def genesisHash : String := "0000000000000000000000000000000000000000000000000000000000000000"

def i64Max : Int := 9223372036854775807

/-- SQLite hands out row ids 1 .. 2^63-1, so a table never holds more rows. -/
def maxRows : Nat := 9223372036854775807

inductive ExistingEventPolicy where
  | reject
  | matchAll
  | matchIgnoringCreatedAt
  deriving DecidableEq, Repr

structure PreparedEvent where
  eventId : String
  principalId : String
  namespaceKey : String
  runId : Option String
  eventType : String
  payloadJson : String
  signatureHex : Option String
  createdAt : String
  parentEventId : Option String
  deriving DecidableEq

/-- `StoredEventIdentity::matches`. -/
def EventRow.matches (row : EventRow) (event : PreparedEvent) (includeCreatedAt : Bool) : Prop :=
  row.principalId = event.principalId ∧ row.namespaceKey = event.namespaceKey ∧
  row.runId = event.runId ∧ row.eventType = event.eventType ∧
  row.payloadJson = event.payloadJson ∧ row.signatureHex = event.signatureHex ∧
  (includeCreatedAt = true → row.createdAt = event.createdAt) ∧
  row.parentEventId = event.parentEventId

instance : Decidable (EventRow.matches row event includeCreatedAt) :=
  inferInstanceAs (Decidable (_ ∧ _))

/-- SHA-256 of `event_id|principal_id|event_type|payload_json|created_at|seq_num`. -/
def eventHash (host : Host) (eventId principalId eventType payloadJson createdAt : String)
    (seqNum : Int) : String :=
  host.sha256Hex (Host.utf8 (eventId ++ "|" ++ principalId ++ "|" ++ eventType ++ "|" ++
    payloadJson ++ "|" ++ createdAt ++ "|" ++ toString seqNum))

def rowHash (host : Host) (principalId : String) (row : EventRow) : String :=
  eventHash host row.eventId principalId row.eventType row.payloadJson row.createdAt row.seqNum

/-- Where the chain of a principal reads position, predecessor and digest of a row. -/
def chain (host : Host) (principalId : String) : Link EventRow String where
  seq := EventRow.seqNum
  prev := EventRow.prevHash
  digest := rowHash host principalId

/-- `WHERE principal_id = ?1`. -/
def rowsOf (principalId : String) (rows : List EventRow) : List EventRow :=
  rows.filter (fun row => decide (row.principalId = principalId))

/-- `ORDER BY seq_num ASC`. -/
def bySeq (rows : List EventRow) : List EventRow :=
  rows.mergeSort (fun a b => decide (a.seqNum ≤ b.seqNum))

/-- The unique index leaves no two rows of a principal at one position, so the row
`ORDER BY seq_num DESC LIMIT 1` selects is the last in ascending order. -/
def nextChainPosition (host : Host) (rows : List EventRow) (principalId : String) :
    Except LedgerError (Int × String) :=
  match (bySeq (rowsOf principalId rows)).getLast? with
  | none => .ok (0, genesisHash)
  | some row =>
    if row.seqNum = i64Max then .error (.corruptChain "event sequence exhausted i64")
    else .ok (row.seqNum + 1, rowHash host principalId row)

/-- `INSERT INTO events` under the primary key and the unique index on
`(principal_id, seq_num)`. -/
def insertRow (rows : List EventRow) (row : EventRow) : Except LedgerError (List EventRow) := do
  ensure (∀ r ∈ rows, r.eventId ≠ row.eventId) LedgerError.sqliteConstraint
  ensure (∀ r ∈ rows, ¬ (r.principalId = row.principalId ∧ r.seqNum = row.seqNum))
    LedgerError.sqliteConstraint
  ensure (rows.length < maxRows) LedgerError.sqliteFull
  .ok (rows ++ [row])

def PreparedEvent.row (event : PreparedEvent) (seqNum : Int) (prevHash : String) : EventRow where
  eventId := event.eventId
  principalId := event.principalId
  namespaceKey := event.namespaceKey
  runId := event.runId
  eventType := event.eventType
  payloadJson := event.payloadJson
  signatureHex := event.signatureHex
  createdAt := event.createdAt
  seqNum := seqNum
  prevHash := prevHash
  parentEventId := event.parentEventId

def findEvent (rows : List EventRow) (eventId : String) : Option EventRow :=
  rows.find? (fun row => decide (row.eventId = eventId))

/-- Whether an event already stored under the id counts as the event to append. -/
def equivalent (policy : ExistingEventPolicy) (existing : EventRow) (event : PreparedEvent) : Prop :=
  match policy with
  | .reject => False
  | .matchAll => existing.matches event true
  | .matchIgnoringCreatedAt => existing.matches event false

instance : Decidable (equivalent policy existing event) := by
  cases policy <;> unfold equivalent <;> infer_instance

/-- The flag returned says whether a row was inserted. -/
def appendPreparedEventInTransaction (host : Host) (rows : List EventRow) (event : PreparedEvent)
    (policy : ExistingEventPolicy) : Except LedgerError (List EventRow × Bool) :=
  match findEvent rows event.eventId with
  | some existing => do
    ensure (equivalent policy existing event) (LedgerError.eventIdConflict event.eventId)
    .ok (rows, false)
  | none => do
    let position ← nextChainPosition host rows event.principalId
    let rows ← insertRow rows (event.row position.1 position.2)
    .ok (rows, true)

/-- `LedgerEvent`, the in-memory form of a row without its chain columns. -/
structure LedgerEvent where
  eventId : String
  principalId : String
  namespaceKey : String
  runId : Option String
  eventType : String
  payload : Json
  signature : Option (List UInt8)
  createdAt : String
  parentEventId : Option String
  deriving DecidableEq

def LedgerEvent.prepared (host : Host) (event : LedgerEvent) : PreparedEvent where
  eventId := event.eventId
  principalId := event.principalId
  namespaceKey := event.namespaceKey
  runId := event.runId
  eventType := event.eventType
  payloadJson := host.toText event.payload
  signatureHex := event.signature.map hexEncode
  createdAt := event.createdAt
  parentEventId := event.parentEventId

/-- `row_to_event`. -/
def rowToEvent (host : Host) (row : EventRow) : Except LedgerError LedgerEvent := do
  let payload ← required (host.ofText row.payloadJson) (LedgerError.corruptPayload row.eventId)
  let signature ← match row.signatureHex with
    | none => Except.ok none
    | some text => some <$> required (hexDecode text) (LedgerError.corruptPayload row.eventId)
  .ok { eventId := row.eventId, principalId := row.principalId, namespaceKey := row.namespaceKey,
        runId := row.runId, eventType := row.eventType, payload := payload, signature := signature,
        createdAt := row.createdAt, parentEventId := row.parentEventId }

/-- What a row is read as: the columns as they stand, the payload parsed and the signature decoded. -/
structure ReadAs (host : Host) (row : EventRow) (event : LedgerEvent) : Prop where
  payload : host.ofText row.payloadJson = some event.payload
  signature : row.signatureHex.map hexDecode = event.signature.map some
  columns : event = { event with
    eventId := row.eventId
    principalId := row.principalId
    namespaceKey := row.namespaceKey
    runId := row.runId
    eventType := row.eventType
    createdAt := row.createdAt
    parentEventId := row.parentEventId }

theorem rowToEvent_ok_iff {host : Host} {row : EventRow} {event : LedgerEvent} :
    rowToEvent host row = .ok event ↔ ReadAs host row event := by
  cases signed : row.signatureHex with
  | none =>
    simp only [rowToEvent,bind_ok_iff,required_ok_iff,signed,ok_bind,Except.ok.injEq]
    constructor
    · rintro ⟨payload, parsed, rfl⟩
      exact ⟨parsed, by rw [signed]; rfl, rfl⟩
    · rintro ⟨parsed, signature, columns⟩
      have bare : event.signature = none := by
        rw [signed] at signature
        cases here : event.signature with
        | none => rfl
        | some bytes => rw [here] at signature; cases signature
      refine ⟨event.payload, parsed, ?_⟩
      rw [columns,bare]
  | some text =>
    simp only [rowToEvent,bind_ok_iff,required_ok_iff,signed,Except.ok.injEq]
    constructor
    · rintro ⟨payload, parsed, signature, decoded, rfl⟩
      cases bytes : hexDecode text with
      | none =>
        rw [bytes] at decoded
        cases decoded
      | some b =>
        rw [bytes] at decoded
        cases decoded
        exact ⟨parsed, by rw [signed,Option.map_some,bytes]; rfl, rfl⟩
    · rintro ⟨parsed, signature, columns⟩
      rw [signed,Option.map_some] at signature
      cases here : event.signature with
      | none =>
        rw [here] at signature
        cases signature
      | some b =>
        rw [here,Option.map_some,Option.some.injEq] at signature
        refine ⟨event.payload, parsed, some b, by rw [signature]; rfl, ?_⟩
        rw [columns,here]

inductive EventInsertDisposition where
  | inserted
  | existing
  deriving DecidableEq, Repr

def disposition (inserted : Bool) : EventInsertDisposition := if inserted then .inserted else .existing

def appendEventWithParent (host : Host) (rows : List EventRow) (eventId createdAt : String)
    (principalId namespaceKey eventType : String) (payload : Json) (runId : Option String)
    (signature : Option (List UInt8)) (parentEventId : Option String) :
    Except LedgerError (List EventRow × Bool) :=
  appendPreparedEventInTransaction host rows
    (LedgerEvent.prepared host ⟨eventId, principalId, namespaceKey, runId, eventType, payload,
      signature, createdAt, parentEventId⟩) .reject

/-- `event_envelope_signing_bytes`. -/
def eventEnvelopeSigningBytes (host : Host) (principalId namespaceKey : String)
    (runId : Option String) (eventType : String) (payload : Json) (parentEventId : Option String) :
    List UInt8 :=
  Host.utf8 (host.toText (.obj [
    ("schema", .str "zaion.event.signature.v2"),
    ("principal_id", .str principalId),
    ("namespace_key", .str namespaceKey),
    ("run_id", .ofOption .str runId),
    ("event_type", .str eventType),
    ("payload", payload),
    ("parent_event_id", .ofOption .str parentEventId)]))

def signEventEnvelope (host : Host) (keypair : Keypair) (namespaceKey : String)
    (runId : Option String) (eventType : String) (payload : Json) (parentEventId : Option String) :
    List UInt8 :=
  host.sign keypair (eventEnvelopeSigningBytes host (host.principalOf keypair.publicKey) namespaceKey
    runId eventType payload parentEventId)

def appendSignedEventWithParent (host : Host) (rows : List EventRow) (eventId createdAt : String)
    (keypair : Keypair) (namespaceKey eventType : String) (payload : Json) (runId : Option String)
    (parentEventId : Option String) : Except LedgerError (List EventRow × Bool) :=
  appendEventWithParent host rows eventId createdAt (host.principalOf keypair.publicKey) namespaceKey
    eventType payload runId
    (some (signEventEnvelope host keypair namespaceKey runId eventType payload parentEventId))
    parentEventId

/-- Letters, digits and `._:-@`. -/
def tokenByte (b : UInt8) : Bool :=
  (48 ≤ b && b ≤ 57) || (65 ≤ b && b ≤ 90) || (97 ≤ b && b ≤ 122) ||
    b == 46 || b == 95 || b == 58 || b == 45 || b == 64

/-- Every byte is a token byte, so that trimming has nothing to remove. -/
def validIdempotencyKey (key : String) : Bool :=
  decide (8 ≤ (Host.utf8 key).length) && decide ((Host.utf8 key).length ≤ 256) &&
    (Host.utf8 key).all tokenByte

def deterministicIdempotentEventId (host : Host) (principalId idempotencyKey : String) : String :=
  "evt-idem-" ++ host.shortHash [principalId, idempotencyKey]

def appendSignedIdempotentEventWithParent (host : Host) (rows : List EventRow) (createdAt : String)
    (keypair : Keypair) (namespaceKey eventType : String) (payload : Json) (runId : Option String)
    (parentEventId : Option String) (idempotencyKey : String) :
    Except LedgerError (List EventRow × Bool) := do
  ensure (validIdempotencyKey idempotencyKey = true) LedgerError.invalidIdempotencyKey
  let principalId := host.principalOf keypair.publicKey
  appendPreparedEventInTransaction host rows
    (LedgerEvent.prepared host {
      eventId := deterministicIdempotentEventId host principalId idempotencyKey
      principalId, namespaceKey, runId, eventType, payload
      signature := some (signEventEnvelope host keypair namespaceKey runId eventType payload parentEventId)
      createdAt, parentEventId }) .matchIgnoringCreatedAt

def insertEventWithIdAndParent (host : Host) (rows : List EventRow) (event : LedgerEvent) :
    Except LedgerError (List EventRow × Bool) :=
  appendPreparedEventInTransaction host rows (event.prepared host) .matchAll

/-- One transaction: positions of later events are computed from rows the earlier
ones inserted, and any failure drops them all. -/
def insertEventsWithIdsAtomic (host : Host) :
    List EventRow → List LedgerEvent → Except LedgerError (List EventRow × List EventInsertDisposition)
  | rows, [] => .ok (rows, [])
  | rows, event :: events => do
    let step ← appendPreparedEventInTransaction host rows (event.prepared host) .matchAll
    let rest ← insertEventsWithIdsAtomic host step.1 events
    .ok (rest.1, disposition step.2 :: rest.2)

/-- The ledger's writes. The `append_typed_*` forms and the forms without parent are
these at an event type's name and at `None`. -/
inductive Write where
  | appendEventWithParent (eventId createdAt principalId namespaceKey eventType : String)
      (payload : Json) (runId : Option String) (signature : Option (List UInt8))
      (parentEventId : Option String)
  | appendSignedEventWithParent (eventId createdAt : String) (keypair : Keypair)
      (namespaceKey eventType : String) (payload : Json) (runId parentEventId : Option String)
  | appendSignedIdempotentEventWithParent (createdAt : String) (keypair : Keypair)
      (namespaceKey eventType : String) (payload : Json) (runId parentEventId : Option String)
      (idempotencyKey : String)
  | insertEventWithIdAndParent (event : LedgerEvent)
  | insertEventsWithIdsAtomic (events : List LedgerEvent)

/-- The table after a write that commits. -/
def Write.exec (host : Host) (rows : List EventRow) : Write → Except LedgerError (List EventRow)
  | .appendEventWithParent eventId createdAt principalId namespaceKey eventType payload runId
      signature parentEventId =>
    Prod.fst <$> Ledger.appendEventWithParent host rows eventId createdAt principalId namespaceKey
      eventType payload runId signature parentEventId
  | .appendSignedEventWithParent eventId createdAt keypair namespaceKey eventType payload runId
      parentEventId =>
    Prod.fst <$> Ledger.appendSignedEventWithParent host rows eventId createdAt keypair namespaceKey
      eventType payload runId parentEventId
  | .appendSignedIdempotentEventWithParent createdAt keypair namespaceKey eventType payload runId
      parentEventId idempotencyKey =>
    Prod.fst <$> Ledger.appendSignedIdempotentEventWithParent host rows createdAt keypair namespaceKey
      eventType payload runId parentEventId idempotencyKey
  | .insertEventWithIdAndParent event => Prod.fst <$> Ledger.insertEventWithIdAndParent host rows event
  | .insertEventsWithIdsAtomic events => Prod.fst <$> Ledger.insertEventsWithIdsAtomic host rows events

/-- A write that fails leaves the table as it was. -/
def Write.apply (host : Host) (rows : List EventRow) (write : Write) : List EventRow :=
  match write.exec host rows with
  | .ok rows' => rows'
  | .error _ => rows

/-- Writes of any callers, in the order their transactions commit. -/
def runWrites (host : Host) (rows : List EventRow) (writes : List Write) : List EventRow :=
  writes.foldl (Write.apply host) rows

end Zaion.Ledger
