import Zaion.Session.Branch
import Zaion.Turn.Digests

/-! The envelope every input enters through, what makes it valid, and the ledger payload it is
recorded by. -/
namespace Zaion.Turn

open Lib Session

inductive CanonicalEnvelopeError where
  | emptySource
  | emptyPrincipal
  | unsafePrincipal (principal : String)
  | emptyChannel
  | emptyThread
  | emptyMessageId
  | emptySourceHash
  | invalidSourceHash
  | sourceHashMismatch
  | emptyBody
  deriving DecidableEq, Repr

def CanonicalEnvelopeError.text : CanonicalEnvelopeError → String
  | .emptySource => "canonical envelope source is empty"
  | .emptyPrincipal => "canonical envelope principal is empty"
  | .unsafePrincipal principal => "canonical envelope principal is not production-safe: " ++ principal
  | .emptyChannel => "canonical envelope channel is empty"
  | .emptyThread => "canonical envelope thread is empty"
  | .emptyMessageId => "canonical envelope message_id is empty"
  | .emptySourceHash => "canonical envelope source_hash is empty"
  | .invalidSourceHash => "canonical envelope source_hash must be 64 lowercase hex chars"
  | .sourceHashMismatch => "canonical envelope source_hash does not match the envelope body"
  | .emptyBody => "canonical envelope body is empty"

structure CanonicalEnvelope where
  schemaVersion : Nat
  source : String
  principal : String
  channel : String
  thread : String
  messageId : String
  sourceHash : String
  body : String
  receivedAt : String
  signature : Option (List UInt8)
  metadata : List (String × Json)
  deriving DecidableEq

def isAsciiHexdigit (c : Char) : Bool :=
  (48 ≤ c.toNat && c.toNat ≤ 57) || (65 ≤ c.toNat && c.toNat ≤ 70) || (97 ≤ c.toNat && c.toNat ≤ 102)

def isSha256Hex (value : String) : Bool :=
  decide (value.toList.length = 64) && value.toList.all isAsciiHexdigit && decide (value = toAsciiLowercase value)

namespace CanonicalEnvelope

variable (host : Host)

def expectedHash (e : CanonicalEnvelope) : String :=
  computeSourceHash host e.source e.principal e.channel e.thread e.messageId e.body

def validate (e : CanonicalEnvelope) : Except CanonicalEnvelopeError Unit := do
  ensure (trim e.source ≠ "") .emptySource
  ensure (trim e.principal ≠ "") .emptyPrincipal
  ensure (isUnsafePrincipal e.principal = false) (.unsafePrincipal e.principal)
  ensure (trim e.channel ≠ "") .emptyChannel
  ensure (trim e.thread ≠ "") .emptyThread
  ensure (trim e.messageId ≠ "") .emptyMessageId
  ensure (trim e.sourceHash ≠ "") .emptySourceHash
  ensure (isSha256Hex e.sourceHash = true) .invalidSourceHash
  ensure (e.sourceHash = e.expectedHash host) .sourceHashMismatch
  ensure (trim e.body ≠ "") .emptyBody

/-- The envelope `new` builds before it is validated; the hash is computed where none is given. -/
def built (source principal channel thread messageId body : String) (sourceHash : Option String) (receivedAt : String) :
    CanonicalEnvelope where
  schemaVersion := 1
  source := source
  principal := principal
  channel := channel
  thread := thread
  messageId := messageId
  sourceHash := sourceHash.getD (computeSourceHash host source principal channel thread messageId body)
  body := body
  receivedAt := receivedAt
  signature := none
  metadata := []

def new (source principal channel thread messageId body : String) (sourceHash : Option String) (receivedAt : String) :
    Except CanonicalEnvelopeError CanonicalEnvelope := do
  let envelope := built host source principal channel thread messageId body sourceHash receivedAt
  envelope.validate host
  .ok envelope

def ingest (e : CanonicalEnvelope) : Except CanonicalEnvelopeError CanonicalEnvelope := do
  e.validate host
  .ok e

/-- `source_hash[..16]`; a hash that is valid is one byte to a character. -/
def envelopeId (e : CanonicalEnvelope) : String := String.ofList (e.sourceHash.toList.take 16)

def toChannelReceivedPayload (e : CanonicalEnvelope) : List (String × Json) := [
  ("schema", .str "zaion.canonical_envelope.v1"),
  ("envelope_id", .str e.envelopeId),
  ("source", .str e.source),
  ("principal_id", .str e.principal),
  ("channel_id", .str e.channel),
  ("thread_id", .str e.thread),
  ("message_id", .str e.messageId),
  ("source_message_id", .str e.messageId),
  ("source_hash", .str e.sourceHash),
  ("received_at", .str e.receivedAt),
  ("signature_present", .bool e.signature.isSome),
  ("metadata", .obj e.metadata),
  ("content", .str e.body),
  ("message", .str e.body)]

section

variable {host} {e : CanonicalEnvelope} {source principal channel thread messageId body receivedAt : String}
  {sourceHash : Option String}

theorem validate_ok_iff : e.validate host = .ok () ↔ trim e.source ≠ "" ∧ trim e.principal ≠ "" ∧
    isUnsafePrincipal e.principal = false ∧ trim e.channel ≠ "" ∧ trim e.thread ≠ "" ∧ trim e.messageId ≠ "" ∧
    trim e.sourceHash ≠ "" ∧ isSha256Hex e.sourceHash = true ∧ e.sourceHash = e.expectedHash host ∧ trim e.body ≠ "" := by
  simp only [validate,check_bind_ok_iff,ensure_ok_iff]

theorem new_ok_iff : new host source principal channel thread messageId body sourceHash receivedAt = .ok e ↔
    e = built host source principal channel thread messageId body sourceHash receivedAt ∧ e.validate host = .ok () := by
  simp only [new,check_bind_ok_iff,Except.ok.injEq]
  constructor
  · rintro ⟨valid, rfl⟩
    exact ⟨rfl, valid⟩
  · rintro ⟨rfl, valid⟩
    exact ⟨valid, rfl⟩

theorem ingest_of_valid (valid : e.validate host = .ok ()) : e.ingest host = .ok e := by
  rw [ingest,valid]
  rfl

/-- A hash that the program computes is in the form it asks for. -/
theorem isSha256Hex_digest (digests : host.DigestIsHex) (bytes : List UInt8) : isSha256Hex (host.sha256Hex bytes) = true := by
  obtain ⟨length, lower⟩ := digests bytes
  have digit (c : Char) (member : c ∈ (host.sha256Hex bytes).toList) : isAsciiHexdigit c = true ∧ asciiLower c = c := by
    have range := lower c member
    simp only [isLowerHex,Bool.or_eq_true,Bool.and_eq_true,decide_eq_true_eq] at range
    constructor
    · simp only [isAsciiHexdigit,Bool.or_eq_true,Bool.and_eq_true,decide_eq_true_eq]
      omega
    · exact if_neg (by omega)
  have same : (host.sha256Hex bytes).toList.map asciiLower = (host.sha256Hex bytes).toList :=
    (List.map_congr_left fun c member => (digit c member).2).trans (List.map_id' _)
  simp only [isSha256Hex,Bool.and_eq_true,decide_eq_true_eq,List.all_eq_true]
  exact ⟨⟨length, fun c member => (digit c member).1⟩, by rw [toAsciiLowercase,same,String.ofList_toList]⟩

/-- An envelope whose hash the program computes is valid when its texts are. -/
theorem built_valid (digests : host.DigestIsHex) (sourced : trim source ≠ "") (named : trim principal ≠ "")
    (safe : isUnsafePrincipal principal = false) (channelled : trim channel ≠ "") (threaded : trim thread ≠ "")
    (numbered : trim messageId ≠ "") (worded : trim body ≠ "") :
    (built host source principal channel thread messageId body none receivedAt).validate host = .ok () := by
  refine validate_ok_iff.mpr ⟨sourced, named, safe, channelled, threaded, numbered, ?_, isSha256Hex_digest digests _, rfl, worded⟩
  obtain ⟨length, lower⟩ := digests (Host.framed [source, principal, channel, thread, messageId, body])
  refine trim_ne_of_lowerHex (fun empty => ?_) lower
  exact absurd (length.symm.trans (congrArg List.length empty)) (by decide)

end

end CanonicalEnvelope

end Zaion.Turn
