import Zaion.Lib.Calendar
import Zaion.Lib.JsonText
import Zaion.Lib.Sha256
import Zaion.Lib.Utf8
import Zaion.Turn.Ingress

/-! Hosts that satisfy the laws the results ask of one, and a request to run on them. JSON
and RFC 3339 are written and read as the libraries do it; signatures, which no result
evaluates, are stand-ins that keep their whole input. -/
namespace Zaion

open Lib Turn

/-- Its digest keeps the whole input too. -/
def sampleHost : Host where
  sha256Hex := hexEncode
  toText := JsonText.toText
  ofText := JsonText.ofText
  rfc3339Millis := fun t => String.ofList (printInstant t.millis)
  rfc3339 := fun t => String.ofList (printInstant t.millis)
  parseRfc3339 := fun text => (readInstant text.toList).bind DateTime.ofMillis?
  rfc3339Error := fun _ => "input contains invalid characters"
  principalOf := fun key => "zaion1" ++ hexEncode key
  sign := fun keypair message => keypair.publicKey ++ message
  verifySignature := fun key message signature => decide (signature = key ++ message)

/-- The same with SHA-256. -/
def sha256Host : Host := { sampleHost with sha256Hex := Sha256.hexText }

section

variable {host : Host}

theorem readsBack_of_text (writes : host.toText = JsonText.toText) (reads : host.ofText = JsonText.ofText) :
    host.ReadsBack := by
  intro v plain
  simp only [Json.plain,Bool.and_eq_true] at plain
  rw [writes,reads]
  exact JsonText.ofText_toText plain.1

theorem parse_printInstant (reads : host.parseRfc3339 = fun text => (readInstant text.toList).bind DateTime.ofMillis?)
    {t : DateTime} (year : t.FourDigitYear) :
    host.parseRfc3339 (String.ofList (printInstant t.millis)) = some t.floor := by
  have low : -62167219200000 ≤ t.millis := by have := year.1; unfold DateTime.millis; omega
  have high : t.millis < 253402300800000 := by have := year.2; unfold DateTime.millis; omega
  simp [reads,readInstant_printInstant low high]

theorem clockReadsBack_of_text
    (writes : host.rfc3339Millis = fun t => String.ofList (printInstant t.millis))
    (reads : host.parseRfc3339 = fun text => (readInstant text.toList).bind DateTime.ofMillis?) :
    host.ClockReadsBack := by
  intro t year
  rw [writes]
  exact parse_printInstant reads year

theorem deadlineReadsBack_of_text (writes : host.rfc3339 = fun t => String.ofList (printInstant t.millis))
    (reads : host.parseRfc3339 = fun text => (readInstant text.toList).bind DateTime.ofMillis?) :
    host.DeadlineReadsBack := by
  intro t year
  refine ⟨t.floor, ?_, t.millis_floor⟩
  rw [writes]
  exact parse_printInstant reads year

end

theorem utf8_toText_ne (v : Json) : Host.utf8 (JsonText.toText v) ≠ [] := by
  intro empty
  obtain ⟨c, rest, printed, _⟩ := JsonText.print_head v
  have same : JsonText.toText v = "" := toByteArray_toList_injective (empty.trans (toByteArray_toList_flatMap "").symm)
  rw [JsonText.toText,printed] at same
  exact absurd (congrArg String.toList same) (by simp)

theorem sampleHost_readsBack : sampleHost.ReadsBack := readsBack_of_text rfl rfl

theorem sampleHost_collisionFree : sampleHost.CollisionFree := hexEncode_injective

theorem sha256Host_readsBack : sha256Host.ReadsBack := readsBack_of_text rfl rfl

theorem sha256Host_clockReadsBack : sha256Host.ClockReadsBack := clockReadsBack_of_text rfl rfl

theorem sha256Host_deadlineReadsBack : sha256Host.DeadlineReadsBack := deadlineReadsBack_of_text rfl rfl

theorem sha256Host_digestIsHex : sha256Host.DigestIsHex :=
  fun bytes => ⟨Sha256.hexText_length bytes, fun _ => Sha256.hexText_lower⟩

/-- 2026-01-01T00:00:00Z, and a minute later. -/
def sampleNow : DateTime := ⟨1767225600000000000, by decide, by decide⟩
def sampleDeadline : DateTime := ⟨1767225660000000000, by decide, by decide⟩

def sampleInput : AuthenticatedIngressInput where
  tenantId := "tenant-a"
  subjectId := "user-1"
  principalId := "zaion1ab"
  workspaceId := "workspace"
  profileId := "default"
  sessionId := "session-1"
  sourceSurface := "cli"
  sourceId := "local"
  deadline := sampleDeadline
  scopes := ["chat"]
  idempotencyKey := "request-0001"
  attachments := []

theorem sampleInput_valid : sampleInput.valid = true := by decide +kernel

def sampleIngress : AuthenticatedIngress := ⟨sampleInput, sampleInput_valid⟩

def sampleAdmission (approvalRequired : Bool) : DurableTurnAdmission where
  actor := .forIngress sha256Host sampleIngress "terminal" "main"
  request := .str "hello"
  leaseOwner := "runner-1"
  approvalRequired := approvalRequired

end Zaion
