import Zaion.Ledger.Events
import Zaion.Lib.Text

/-! The authenticated request a turn is admitted for. `AuthenticatedIngress::new` is the
only way to one, so a value carries the checks it passed. -/
namespace Zaion.Turn

open Lib

structure IngressAttachment where
  attachmentId : String
  mediaType : String
  byteLen : Nat
  sha256 : String
  deriving DecidableEq

structure AuthenticatedIngressInput where
  tenantId : String
  subjectId : String
  principalId : String
  workspaceId : String
  profileId : String
  sessionId : String
  sourceSurface : String
  sourceId : String
  deadline : DateTime
  scopes : List String
  idempotencyKey : String
  attachments : List IngressAttachment
  deriving DecidableEq

/-- `validate_identifier`, and `validate_lease_identity` in the turn store: with token
bytes only, trimming changes nothing. -/
def validIdentifier (value : String) : Bool :=
  decide (value ≠ "") && decide ((Host.utf8 value).length ≤ 256) &&
    (Host.utf8 value).all Ledger.tokenByte

/-- Token bytes without `@`. -/
def scopeByte (b : UInt8) : Bool := Ledger.tokenByte b && b != 64

def validScope (scope : String) : Bool :=
  decide (scope ≠ "") && decide ((Host.utf8 scope).length ≤ 128) && (Host.utf8 scope).all scopeByte

/-- `validate_idempotency_key`. -/
def validIngressKey (key : String) : Bool :=
  decide (8 ≤ (Host.utf8 key).length) && decide ((Host.utf8 key).length ≤ 128) &&
    (Host.utf8 key).all scopeByte

def mediaTypeByte (b : UInt8) : Bool :=
  (97 ≤ b && b ≤ 122) || (48 ≤ b && b ≤ 57) || (Host.utf8 "!#$&^_.+-/").contains b

def validMediaType (value : String) : Bool :=
  decide (value ≠ "") && decide ((Host.utf8 value).length ≤ 127) && containsText value "/" &&
    (Host.utf8 value).all mediaTypeByte

/-- `sha256:` and 64 lower-case hexadecimal digits. -/
def validSha256 (value : String) : Bool :=
  startsWithText value "sha256:" &&
    let digits := (Host.utf8 value).drop 7
    decide (digits.length = 64) && digits.all (fun b => (48 ≤ b && b ≤ 57) || (97 ≤ b && b ≤ 102))

def validAttachment (attachment : IngressAttachment) : Bool :=
  validIdentifier attachment.attachmentId && validMediaType attachment.mediaType &&
    validSha256 attachment.sha256 && decide (0 < attachment.byteLen) &&
    decide (attachment.byteLen ≤ 67108864)

/-- The checks of `AuthenticatedIngress::new` on the request itself. The deadline is
compared with the clock of the caller, which the request does not keep. -/
def AuthenticatedIngressInput.valid (input : AuthenticatedIngressInput) : Bool :=
  [input.tenantId, input.subjectId, input.principalId, input.workspaceId, input.profileId,
    input.sessionId, input.sourceSurface, input.sourceId].all validIdentifier &&
  validIngressKey input.idempotencyKey &&
  decide (input.scopes ≠ []) && decide (input.scopes.length ≤ 32) && input.scopes.all validScope &&
  decide input.scopes.Nodup &&
  decide (input.attachments.length ≤ 16) && input.attachments.all validAttachment &&
  decide (input.attachments.map IngressAttachment.attachmentId).Nodup &&
  decide (input.attachments.foldl (fun total a => total + a.byteLen) 0 ≤ 134217728)

structure AuthenticatedIngress extends AuthenticatedIngressInput where
  checked : toAuthenticatedIngressInput.valid = true

def IngressAttachment.toJson (attachment : IngressAttachment) : Json := .obj [
  ("attachment_id", .str attachment.attachmentId),
  ("media_type", .str attachment.mediaType),
  ("byte_len", .nat attachment.byteLen),
  ("sha256", .str attachment.sha256)]

/-- `serde_json::to_value(ingress)`; the scopes are a `BTreeSet`. -/
def AuthenticatedIngress.toJson (host : Host) (ingress : AuthenticatedIngress) : Json := .obj [
  ("tenant_id", .str ingress.tenantId),
  ("subject_id", .str ingress.subjectId),
  ("principal_id", .str ingress.principalId),
  ("workspace_id", .str ingress.workspaceId),
  ("profile_id", .str ingress.profileId),
  ("session_id", .str ingress.sessionId),
  ("source", .obj [
    ("surface", .str ingress.sourceSurface),
    ("source_id", .str ingress.sourceId)]),
  ("deadline", .str (host.rfc3339 ingress.deadline)),
  ("scopes", .arr ((ingress.scopes.mergeSort (fun a b => decide (a ≤ b))).map .str)),
  ("idempotency_key", .str ingress.idempotencyKey),
  ("attachments", .arr (ingress.attachments.map IngressAttachment.toJson))]

theorem IngressAttachment.toJson_exact {attachment : IngressAttachment} (valid : validAttachment attachment = true) :
    attachment.toJson.exact = true := by
  simp only [validAttachment,Bool.and_eq_true,decide_eq_true_eq] at valid
  have small : attachment.byteLen < 18446744073709551616 := by omega
  simp [toJson,Json.nat,Json.exact,Json.exactFields,small]

theorem IngressAttachment.toJson_depth (attachment : IngressAttachment) : attachment.toJson.depth = 1 := by
  simp [toJson,Json.nat,Json.depth,Json.depthFields]

/-- The authority of a request is a value that prints and parses exactly. -/
theorem AuthenticatedIngress.toJson_plain (host : Host) (ingress : AuthenticatedIngress) :
    (ingress.toJson host).plain = true := by
  have checked := ingress.checked
  simp only [AuthenticatedIngressInput.valid,Bool.and_eq_true,List.all_eq_true] at checked
  have attachments : ∀ a ∈ ingress.attachments, a.toJson.exact = true :=
    fun a member => a.toJson_exact (checked.1.1.2 a member)
  simp only [Json.plain,Bool.and_eq_true,decide_eq_true_eq]
  constructor
  · simp [toJson,Json.exact,Json.exactFields,Json.exactItems_iff]
    exact attachments
  · have scopes : Json.depthItems ((ingress.scopes.mergeSort (fun a b => decide (a ≤ b))).map .str) ≤ 0 := by
      rw [Json.depthItems_le_iff]
      simp [Json.depth]
    have files : Json.depthItems (ingress.attachments.map IngressAttachment.toJson) ≤ 1 := by
      simp [Json.depthItems_le_iff,IngressAttachment.toJson_depth]
    simp only [toJson,Json.depth,Json.depthFields]
    omega

structure TurnActorIdentity where
  tenantId : String
  actorKey : String
  principalId : String
  workspaceId : String
  profileId : String
  channelId : String
  threadId : String
  deriving DecidableEq

/-- `deterministic_actor_key`. -/
def deterministicActorKey (host : Host) (parts : List String) : String := "actor-" ++ host.shortHash parts

/-- `TurnActorIdentity::for_ingress`, for channel and thread names that pass its checks. -/
def TurnActorIdentity.forIngress (host : Host) (ingress : AuthenticatedIngress)
    (channelId threadId : String) : TurnActorIdentity where
  tenantId := ingress.tenantId
  actorKey := deterministicActorKey host [ingress.tenantId, ingress.principalId, ingress.workspaceId,
    ingress.profileId, channelId, threadId]
  principalId := ingress.principalId
  workspaceId := ingress.workspaceId
  profileId := ingress.profileId
  channelId := channelId
  threadId := threadId

structure DurableTurnAdmission where
  actor : TurnActorIdentity
  request : Json
  leaseOwner : String
  approvalRequired : Bool

end Zaion.Turn
