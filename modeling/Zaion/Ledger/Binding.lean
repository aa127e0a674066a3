import Zaion.Ledger.Chain
import Zaion.Lib.Text

/-! Events under a caller's idempotency key: the exact content expected of one, appending
it, and the sealed evidence that it is in the ledger. -/
namespace Zaion.Ledger

open Lib

structure IdempotentEventBinding where
  idempotencyKey : String
  principalId : String
  namespaceKey : String
  runId : Option String
  eventType : String
  payload : Json
  parentEventId : Option String
  deriving DecidableEq

namespace IdempotentEventBinding

/-- `IdempotentEventBinding::new`. -/
def new (binding : IdempotentEventBinding) : Except LedgerError IdempotentEventBinding := do
  ensure (validIdempotencyKey binding.idempotencyKey = true) LedgerError.invalidIdempotencyKey
  ensure (trim binding.eventType ≠ "" ∧ trim binding.eventType = binding.eventType)
    (LedgerError.eventBindingMismatch "event_type")
  .ok binding

theorem new_ok {binding result : IdempotentEventBinding} (made : binding.new = .ok result) :
    result = binding := by
  simp only [new,bind_ok_iff] at made
  obtain ⟨_, _, _, _, same⟩ := made
  exact (Except.ok.inj same).symm

/-- `expected_event_id`. -/
def expectedEventId (host : Host) (binding : IdempotentEventBinding) : String :=
  deterministicIdempotentEventId host binding.principalId binding.idempotencyKey

end IdempotentEventBinding

structure VerifiedEventCommit where
  eventId : String
  canonicalLedgerPath : String
  databaseInstanceId : String
  bindingDigest : String
  publicKeyBytes : List UInt8
  deriving DecidableEq

/-- The database a ledger works on, and the events in it. -/
structure LiveLedger where
  path : String
  instanceId : String
  events : List EventRow

/-- `binding_digest`. -/
def bindingDigest (host : Host) (path instanceId eventId : String) (binding : IdempotentEventBinding) :
    String :=
  "sha256:" ++ host.sha256Hex (Host.utf8 (host.toText (.obj [
    ("schema", .str "zaion.ledger.verified_event_binding.v2"),
    ("canonical_ledger_path_bytes", .str (hexEncode (Host.utf8 path))),
    ("database_instance_id", .str instanceId),
    ("event_id", .str eventId),
    ("idempotency_key", .str binding.idempotencyKey),
    ("principal_id", .str binding.principalId),
    ("namespace_key", .str binding.namespaceKey),
    ("run_id", .ofOption .str binding.runId),
    ("event_type", .str binding.eventType),
    ("payload", binding.payload),
    ("parent_event_id", .ofOption .str binding.parentEventId),
    ("signature_mode", .str "canonical_envelope_v2")])))

inductive EventSignatureMode where
  | canonicalEnvelope
  | legacyPayloadOnly
  deriving DecidableEq, Repr

/-- `verify_event_signature`. -/
def verifyEventSignature (host : Host) (publicKey : List UInt8) (event : LedgerEvent) :
    Option EventSignatureMode := do
  let signature ← event.signature
  let envelope := eventEnvelopeSigningBytes host event.principalId event.namespaceKey event.runId
    event.eventType event.payload event.parentEventId
  if host.verifySignature publicKey envelope signature then some .canonicalEnvelope
  else if host.verifySignature publicKey (Host.utf8 (host.toText event.payload)) signature then
    some .legacyPayloadOnly
  else none

/-- `verify_principal_binding`. -/
def verifyPrincipalBinding (expected derived : String) : Except LedgerError Unit :=
  ensure (expected = derived) (LedgerError.eventBindingPrincipalMismatch expected derived)

/-- `verify_text` and `verify_optional_text`. -/
def verifySame [DecidableEq α] (field : String) (actual expected : α) : Except LedgerError Unit :=
  ensure (actual = expected) (LedgerError.eventBindingMismatch field)

def requireCanonicalEnvelope : Option EventSignatureMode → Except LedgerError Unit
  | some .canonicalEnvelope => .ok ()
  | some .legacyPayloadOnly => .error .eventBindingNonCanonicalSignature
  | none => .error .eventBindingSignatureInvalid

/-- `verify_existing_idempotent_event_in_connection`. -/
def verifyExistingIdempotentEvent (host : Host) (ledger : LiveLedger) (publicKey : List UInt8)
    (binding : IdempotentEventBinding) : Except LedgerError VerifiedEventCommit := do
  verifyPrincipalBinding binding.principalId (host.principalOf publicKey)
  let eventId := binding.expectedEventId host
  let row ← required (findEvent ledger.events eventId) (LedgerError.notFound eventId)
  let event ← rowToEvent host row
  verifySame "event_id" event.eventId eventId
  verifySame "principal_id" event.principalId binding.principalId
  verifySame "namespace_key" event.namespaceKey binding.namespaceKey
  verifySame "run_id" event.runId binding.runId
  verifySame "event_type" event.eventType binding.eventType
  verifySame "payload" event.payload binding.payload
  verifySame "parent_event_id" event.parentEventId binding.parentEventId
  requireCanonicalEnvelope (verifyEventSignature host publicKey event)
  .ok { eventId
        canonicalLedgerPath := ledger.path
        databaseInstanceId := ledger.instanceId
        bindingDigest := bindingDigest host ledger.path ledger.instanceId eventId binding
        publicKeyBytes := publicKey }

theorem rowToEvent_eventType {host : Host} {row : EventRow} {event : LedgerEvent}
    (read : rowToEvent host row = .ok event) : event.eventType = row.eventType :=
  congrArg LedgerEvent.eventType (rowToEvent_ok_iff.mp read).columns

/-- Evidence names the event of the binding, and the ledger holds that event. -/
theorem verifyExisting_ok {host : Host} {ledger : LiveLedger} {publicKey : List UInt8}
    {binding : IdempotentEventBinding} {commit : VerifiedEventCommit}
    (verified : verifyExistingIdempotentEvent host ledger publicKey binding = .ok commit) :
    commit.eventId = binding.expectedEventId host ∧ commit.databaseInstanceId = ledger.instanceId ∧
      commit.publicKeyBytes = publicKey ∧
      ∃ row ∈ ledger.events, row.eventId = binding.expectedEventId host ∧
        row.eventType = binding.eventType := by
  simp only [verifyExistingIdempotentEvent,bind_ok_iff,required_ok_iff,verifySame,ensure_ok_iff] at verified
  obtain ⟨_, _, row, found, event, read, _, _, _, _, _, _, _, _, _, sameType, _, _, _, _, _, _, result⟩ :=
    verified
  cases result
  refine ⟨rfl, rfl, rfl, row, List.mem_of_find?_eq_some found, by simpa using List.find?_some found, ?_⟩
  rw [← rowToEvent_eventType read]
  exact sameType

/-- `VerifiedEventCommit::matches_binding_in_connection`. -/
def VerifiedEventCommit.matchesBindingInConnection (host : Host) (commit : VerifiedEventCommit)
    (ledger : LiveLedger) (binding : IdempotentEventBinding) : Except LedgerError Bool := do
  let verified ← verifyExistingIdempotentEvent host ledger commit.publicKeyBytes binding
  .ok (decide (commit = verified))

/-- `VerifiedEventCommit::matches_binding`. -/
def VerifiedEventCommit.matchesBinding (host : Host) (commit : VerifiedEventCommit) (ledger : LiveLedger)
    (binding : IdempotentEventBinding) : Except LedgerError Bool :=
  let eventId := binding.expectedEventId host
  if commit.eventId = eventId ∧ commit.canonicalLedgerPath = ledger.path ∧
      commit.databaseInstanceId = ledger.instanceId ∧
      commit.bindingDigest = Ledger.bindingDigest host ledger.path ledger.instanceId eventId binding then
    commit.matchesBindingInConnection host ledger binding
  else .ok false

/-- `append_verified_idempotent_event`: the events afterwards and the outcome. The append
commits on its own, so it stays also when reading it back fails. -/
def appendVerifiedIdempotentEvent (host : Host) (ledger : LiveLedger) (createdAt : String)
    (keypair : Keypair) (binding : IdempotentEventBinding) :
    List EventRow × Except LedgerError VerifiedEventCommit :=
  match verifyPrincipalBinding binding.principalId (host.principalOf keypair.publicKey) with
  | .error e => (ledger.events, .error e)
  | .ok () =>
    match appendSignedIdempotentEventWithParent host ledger.events createdAt keypair binding.namespaceKey
        binding.eventType binding.payload binding.runId binding.parentEventId binding.idempotencyKey with
    | .error e => (ledger.events, .error e)
    | .ok (rows, _) =>
      (rows, verifyExistingIdempotentEvent host { ledger with events := rows } keypair.publicKey binding)

theorem appendVerified_appends (host : Host) (ledger : LiveLedger) (createdAt : String) (keypair : Keypair)
    (binding : IdempotentEventBinding) :
    Appends host ledger.events (appendVerifiedIdempotentEvent host ledger createdAt keypair binding).1 := by
  unfold appendVerifiedIdempotentEvent
  split
  · exact .refl _
  · split
    · exact .refl _
    · rename_i _ _ _ _ appended
      simp only [appendSignedIdempotentEventWithParent,bind_ok_iff] at appended
      obtain ⟨_, _, appended⟩ := appended
      exact .single appended

end Zaion.Ledger
