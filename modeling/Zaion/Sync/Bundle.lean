import Zaion.Ledger.Chain

/-! Sync bundles: the tail of one principal's events as JSON objects under a hash, and
the strict decoder that reads them into another ledger. -/
namespace Zaion.Sync

open Lib Ledger

inductive SyncError where
  | ledger (error : LedgerError)
  | hashMismatch (expected actual : String)
  | noEvents
  | invalidBundle (detail : String)
  deriving DecidableEq, Repr

/-- `proof_artifacts` is always exported empty and never imported. -/
structure SyncBundle where
  principalId : String
  fromSeq : UInt64
  events : List Json
  exportedAt : String
  bundleHash : String

/-- `from_seq as i64`. -/
def asI64 (n : UInt64) : Int := if n.toNat < 2 ^ 63 then n.toNat else n.toNat - 2 ^ 64

/-- `EventLedger::list_events_from_seq`. -/
def listEventsFromSeq (host : Host) (rows : List EventRow) (principalId : String) (fromSeq : UInt64) :
    Except LedgerError (List LedgerEvent) :=
  mapAll (rowToEvent host)
    ((bySeq (rowsOf principalId rows)).filter (fun row => decide (asI64 fromSeq ≤ row.seqNum)))

/-- The `Serialize` form of a `LedgerEvent`; an absent parent is left out. -/
def eventFields (event : LedgerEvent) : List (String × Json) :=
  [
    ("event_id", .str event.eventId),
    ("principal_id", .str event.principalId),
    ("namespace_key", .str event.namespaceKey),
    ("run_id", .ofOption .str event.runId),
    ("event_type", .str event.eventType),
    ("payload", event.payload),
    ("signature", .ofOption (fun bytes => .arr (bytes.map (fun b => .nat b.toNat))) event.signature),
    ("created_at", .str event.createdAt)] ++
    match event.parentEventId with
    | none => []
    | some parent => [("parent_event_id", .str parent)]

def toValue (event : LedgerEvent) : Json := .obj (eventFields event)

/-- One `BTreeMap::insert`: keys ascend and a later value replaces an earlier one. -/
def insertField (key : String) (value : List UInt8) :
    List (String × List UInt8) → List (String × List UInt8)
  | [] => [(key, value)]
  | (k, v) :: rest =>
    if key < k then (key, value) :: (k, v) :: rest
    else if key = k then (key, value) :: rest
    else (k, v) :: insertField key value rest

def commaSeparated : List (List UInt8) → List UInt8
  | [] => []
  | [item] => item
  | item :: rest => item ++ Host.utf8 "," ++ commaSeparated rest

mutual

def canonicalJson (host : Host) : Json → List UInt8
  | .null => Host.utf8 "null"
  | .bool true => Host.utf8 "true"
  | .bool false => Host.utf8 "false"
  | .num n => Host.utf8 (host.toText (.num n))
  | .str s => Host.utf8 (host.toText (.str s))
  | .arr items => Host.utf8 "[" ++ commaSeparated (canonicalItems host items) ++ Host.utf8 "]"
  | .obj fields =>
    Host.utf8 "\x7b" ++ commaSeparated ((canonicalFields host fields []).map (fun field =>
      Host.utf8 (host.toText (.str field.1)) ++ Host.utf8 ":" ++ field.2)) ++ Host.utf8 "\x7d"

def canonicalItems (host : Host) : List Json → List (List UInt8)
  | [] => []
  | item :: rest => canonicalJson host item :: canonicalItems host rest

def canonicalFields (host : Host) :
    List (String × Json) → List (String × List UInt8) → List (String × List UInt8)
  | [], sorted => sorted
  | (key, value) :: rest, sorted =>
    canonicalFields host rest (insertField key (canonicalJson host value) sorted)

end

/-- `(n as u64).to_le_bytes()`. -/
def leBytes (n : Nat) : List UInt8 := (List.range 8).map (fun i => UInt8.ofNat (n / 256 ^ i))

def computeBundleHash (host : Host) (events : List Json) : String :=
  host.sha256Hex (events.flatMap (fun event =>
    leBytes (canonicalJson host event).length ++ canonicalJson host event))

/-- `SyncBundle::export` at the time `exportedAt`. -/
def SyncBundle.export (host : Host) (rows : List EventRow) (principalId : String) (fromSeq : UInt64)
    (exportedAt : String) : Except SyncError SyncBundle :=
  match listEventsFromSeq host rows principalId fromSeq with
  | .error e => .error (.ledger e)
  | .ok [] => .error .noEvents
  | .ok events => .ok {
      principalId, fromSeq, exportedAt
      events := events.map toValue
      bundleHash := computeBundleHash host (events.map toValue) }

/-- `v.as_str()` without empty texts. -/
def nonEmptyStr (fields : List (String × Json)) (field : String) : Option String :=
  ((Json.lookup field fields).bind Json.asStr).filter (fun s => decide (s ≠ ""))

def requiredStr (fields : List (String × Json)) (field : String) : Except SyncError String :=
  required (nonEmptyStr fields field)
    (.invalidBundle ("event missing required field '" ++ field ++ "'"))

def decodeByte (item : Json) : Except SyncError UInt8 := do
  let n ← required item.asU64 (SyncError.invalidBundle "signature byte is not an integer")
  ensure (n ≤ 255) (SyncError.invalidBundle ("signature byte " ++ toString n ++ " is outside 0..=255"))
  .ok (UInt8.ofNat n)

def decodeSignature (value : Json) : Except SyncError (List UInt8) := do
  let items ← required value.asArray (SyncError.invalidBundle "signature must be an array of bytes")
  mapAll decodeByte items

def decodeBundleEvent (host : Host) (bundlePrincipalId : String) (eventJson : Json) :
    Except SyncError LedgerEvent := do
  let fields ← required eventJson.asObject (SyncError.invalidBundle "event entry must be a JSON object")
  let eventId ← requiredStr fields "event_id"
  let principalId ← requiredStr fields "principal_id"
  ensure (principalId = bundlePrincipalId) (SyncError.invalidBundle ("event principal '" ++ principalId ++
    "' does not match bundle principal '" ++ bundlePrincipalId ++ "'"))
  let namespaceKey ← requiredStr fields "namespace_key"
  let eventType ← requiredStr fields "event_type"
  let createdAt ← requiredStr fields "created_at"
  ensure ((host.parseRfc3339 createdAt).isSome = true) (SyncError.invalidBundle
    ("invalid created_at '" ++ createdAt ++ "': " ++ host.rfc3339Error createdAt))
  let payload ← required (Json.lookup "payload" fields)
    (SyncError.invalidBundle "event missing required field 'payload'")
  let runId := nonEmptyStr fields "run_id"
  let parentEventId := nonEmptyStr fields "parent_event_id"
  let signature ← match Json.lookup "signature" fields with
    | none | some .null => Except.ok none
    | some value => some <$> decodeSignature value
  .ok { eventId, principalId, namespaceKey, runId, eventType, payload, signature, createdAt,
        parentEventId }

structure ImportResult where
  imported : Nat
  skippedDuplicates : Nat
  principalId : String
  deriving DecidableEq, Repr

def importEvents (host : Host) (rows : List EventRow) (bundle : SyncBundle) :
    Except SyncError (List EventRow × ImportResult) := do
  let actual := computeBundleHash host bundle.events
  ensure (actual = bundle.bundleHash) (SyncError.hashMismatch bundle.bundleHash actual)
  let events ← mapAll (decodeBundleEvent host bundle.principalId) bundle.events
  match insertEventsWithIdsAtomic host rows events with
  | .error e => .error (.ledger e)
  | .ok (rows, dispositions) => .ok (rows,
    ⟨dispositions.count .inserted, dispositions.count .existing, bundle.principalId⟩)

/-- `ImportResult::import`: the ledger it leaves behind and what it returns. -/
def ImportResult.import (host : Host) (rows : List EventRow) (bundle : SyncBundle) :
    List EventRow × Except SyncError ImportResult :=
  match importEvents host rows bundle with
  | .ok (rows', result) => (rows', .ok result)
  | .error e => (rows, .error e)

end Zaion.Sync
