import Zaion.Lib.Hex
import Zaion.Lib.Json
import Zaion.Lib.Text

/-! What the program takes from its libraries: clock values, SHA-256, JSON text,
RFC 3339 text, signatures. None of it is under study here; it enters as data of a
`Host`, and what a result needs to know of it is a named hypothesis. -/
namespace Zaion

/-- First and last instant a `DateTime<Utc>` can hold, in nanoseconds of the epoch. -/
def minNanos : Int := -8334601228800000000000
def maxNanos : Int := 8210266876799999999999

structure DateTime where
  nanos : Int
  lower : minNanos ≤ nanos
  upper : nanos ≤ maxNanos
  deriving DecidableEq

namespace DateTime

instance : LE DateTime := ⟨fun a b => a.nanos ≤ b.nanos⟩
instance : LT DateTime := ⟨fun a b => a.nanos < b.nanos⟩
instance (a b : DateTime) : Decidable (a ≤ b) := inferInstanceAs (Decidable (a.nanos ≤ b.nanos))
instance (a b : DateTime) : Decidable (a < b) := inferInstanceAs (Decidable (a.nanos < b.nanos))

theorem le_def {a b : DateTime} : a ≤ b ↔ a.nanos ≤ b.nanos := Iff.rfl
theorem lt_def {a b : DateTime} : a < b ↔ a.nanos < b.nanos := Iff.rfl

theorem not_lt_iff {a b : DateTime} : ¬ a < b ↔ b ≤ a := by simp [le_def,lt_def]
theorem not_le_iff {a b : DateTime} : ¬ a ≤ b ↔ b < a := by simp [le_def,lt_def]

theorem eq_of_nanos {a b : DateTime} (h : a.nanos = b.nanos) : a = b := by
  cases a; cases b; simpa using h

/-- `timestamp_millis`: whole milliseconds, rounded down. -/
def millis (t : DateTime) : Int := t.nanos / 1000000

/-- `timestamp_millis_opt(..).single()`. -/
def ofMillis? (ms : Int) : Option DateTime :=
  if h : minNanos ≤ ms * 1000000 ∧ ms * 1000000 ≤ maxNanos then some ⟨ms * 1000000, h.1, h.2⟩
  else none

/-- The instant a stored millisecond column reads back as. -/
def floor (t : DateTime) : DateTime where
  nanos := t.nanos / 1000000 * 1000000
  lower := by have := t.lower; unfold minNanos at *; omega
  upper := by have := t.upper; omega

@[simp] theorem ofMillis_millis (t : DateTime) : ofMillis? t.millis = some t.floor := by
  have low := t.floor.lower
  have high := t.floor.upper
  simp only [floor] at low high
  simp [ofMillis?,millis,floor,low,high]

theorem nanos_of_ofMillis {ms : Int} {t : DateTime} (h : ofMillis? ms = some t) :
    t.nanos = ms * 1000000 := by
  unfold ofMillis? at h
  split at h
  · cases h; rfl
  · cases h

theorem millis_of_ofMillis {ms : Int} {t : DateTime} (h : ofMillis? ms = some t) :
    t.millis = ms := by
  simp [millis,nanos_of_ofMillis h]

@[simp] theorem millis_floor (t : DateTime) : t.floor.millis = t.millis := by
  simp [floor,millis]

@[simp] theorem floor_floor (t : DateTime) : t.floor.floor = t.floor := by
  apply eq_of_nanos; simp [floor]

theorem floor_le (t : DateTime) : t.floor ≤ t := by
  simp only [le_def,floor]; omega

theorem millis_mono {a b : DateTime} (h : a ≤ b) : a.millis ≤ b.millis := by
  simp only [le_def,millis] at *; omega

/-- A millisecond column not after an instant is not after it in milliseconds either:
the comparison in Rust and the one in SQL agree. -/
theorem ofMillis_le_iff {ms : Int} {t now : DateTime} (h : ofMillis? ms = some t) :
    t ≤ now ↔ ms ≤ now.millis := by
  simp only [le_def,millis,nanos_of_ofMillis h]; omega

/-- `checked_add_signed`, the duration in nanoseconds. -/
def add? (t : DateTime) (duration : Int) : Option DateTime :=
  if h : minNanos ≤ t.nanos + duration ∧ t.nanos + duration ≤ maxNanos then
    some ⟨t.nanos + duration, h.1, h.2⟩ else none

theorem nanos_of_add {t u : DateTime} {duration : Int} (h : t.add? duration = some u) :
    u.nanos = t.nanos + duration := by
  unfold add? at h
  split at h
  · cases h; rfl
  · cases h

/-- RFC 3339 writes a year as four digits: 0000-01-01 up to, not including, 10000-01-01. -/
def FourDigitYear (t : DateTime) : Prop :=
  -62167219200000000000 ≤ t.nanos ∧ t.nanos < 253402300800000000000

instance (t : DateTime) : Decidable t.FourDigitYear := inferInstanceAs (Decidable (_ ∧ _))

end DateTime

structure Keypair where
  publicKey : List UInt8
  secretKey : List UInt8
  deriving DecidableEq

structure Host where
  /-- `hex::encode(Sha256::digest(bytes))`. -/
  sha256Hex : List UInt8 → String
  /-- `serde_json::to_string`. -/
  toText : Json → String
  /-- `serde_json::from_str`. -/
  ofText : String → Option Json
  /-- `to_rfc3339_opts(SecondsFormat::Millis, true)`. -/
  rfc3339Millis : DateTime → String
  /-- The text `serde` gives a `DateTime<Utc>`. -/
  rfc3339 : DateTime → String
  parseRfc3339 : String → Option DateTime
  /-- The message of a failed `parse_from_rfc3339`. -/
  rfc3339Error : String → String
  principalOf : List UInt8 → String
  sign : Keypair → List UInt8 → List UInt8
  verifySignature : List UInt8 → List UInt8 → List UInt8 → Bool

namespace Host

def utf8 (text : String) : List UInt8 := text.toByteArray.toList

/-- `to_le_bytes`. -/
def littleEndian : Nat → Nat → List UInt8
  | 0, _ => []
  | n + 1, value => UInt8.ofNat (value % 256) :: littleEndian n (value / 256)

theorem utf8_append (a b : String) : utf8 (a ++ b) = utf8 a ++ utf8 b := by
  simp only [utf8,ByteArray.toList,Lib.byteArray_loop,List.reverse_nil,List.nil_append,List.drop_zero]
  simp

theorem utf8_injective : Function.Injective utf8 := Lib.toByteArray_toList_injective

theorem littleEndian_length (n value : Nat) : (littleEndian n value).length = n := by
  induction n generalizing value with
  | zero => rfl
  | succ n ih => rw [littleEndian,List.length_cons,ih]

theorem littleEndian_injective {n a b : Nat} (small : a < 256 ^ n) (small' : b < 256 ^ n)
    (same : littleEndian n a = littleEndian n b) : a = b := by
  induction n generalizing a b with
  | zero => omega
  | succ n ih =>
    obtain ⟨low, high⟩ := List.cons.inj same
    have low : a % 256 = b % 256 := by
      have := congrArg UInt8.toNat low
      simp only [UInt8.toNat_ofNat'] at this
      omega
    have high := ih (by omega) (by omega) high
    omega

/-- What `hash_parts` feeds the digest: length, text and a separator for each part. -/
def framed (parts : List String) : List UInt8 :=
  parts.flatMap (fun part => littleEndian 8 (utf8 part).length ++ utf8 part ++ [0x1f])

/-- The first 40 digits of `hash_parts`, of which ids are made. -/
def shortHash (host : Host) (parts : List String) : String :=
  String.ofList ((host.sha256Hex (framed parts)).toList.take 40)

/-- `sha256_text`. -/
def sha256Text (host : Host) (text : String) : String := "sha256:" ++ host.sha256Hex (utf8 text)

/-- The text of an exact value that is not nested too deep parses back to it. -/
def ReadsBack (host : Host) : Prop := ∀ v : Json, v.plain = true → host.ofText (host.toText v) = some v

/-- A printed instant parses back, to the millisecond printed, while its year has four digits. -/
def ClockReadsBack (host : Host) : Prop :=
  ∀ t : DateTime, t.FourDigitYear → host.parseRfc3339 (host.rfc3339Millis t) = some t.floor

/-- So does the text `serde` gives a deadline. -/
def DeadlineReadsBack (host : Host) : Prop := ∀ t : DateTime, t.FourDigitYear →
  ∃ u, host.parseRfc3339 (host.rfc3339 t) = some u ∧ u.millis = t.millis

/-- A digest is written as 64 lower-case hexadecimal digits. -/
def DigestIsHex (host : Host) : Prop := ∀ bytes, (host.sha256Hex bytes).toList.length = 64 ∧
  ∀ c ∈ (host.sha256Hex bytes).toList, Lib.isLowerHex c = true

/-- What the keypair signs verifies under its public key. -/
def SignsFor (host : Host) (keypair : Keypair) : Prop :=
  ∀ message, host.verifySignature keypair.publicKey message (host.sign keypair message) = true

/-- SHA-256 has no collision. -/
def CollisionFree (host : Host) : Prop := Function.Injective host.sha256Hex

end Host

end Zaion
