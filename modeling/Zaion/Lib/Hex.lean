import Mathlib.Tactic.IntervalCases
import Zaion.Lib.Text

/-! Lower-case hexadecimal text of byte strings and its reader. -/
namespace Zaion.Lib

def hexDigit (n : Nat) : Char :=
  if n < 10 then Char.ofNat (48 + n) else Char.ofNat (87 + n)

def hexValue (c : Char) : Option Nat :=
  if 48 ≤ c.toNat ∧ c.toNat ≤ 57 then some (c.toNat - 48)
  else if 97 ≤ c.toNat ∧ c.toNat ≤ 102 then some (c.toNat - 87)
  else if 65 ≤ c.toNat ∧ c.toNat ≤ 70 then some (c.toNat - 55)
  else none

def hexChars : List UInt8 → List Char
  | [] => []
  | b :: rest => hexDigit (b.toNat / 16) :: hexDigit (b.toNat % 16) :: hexChars rest

def unhexChars : List Char → Option (List UInt8)
  | [] => some []
  | [_] => none
  | high :: low :: rest => do
    let h ← hexValue high
    let l ← hexValue low
    let bytes ← unhexChars rest
    some (UInt8.ofNat (16 * h + l) :: bytes)

/-- `hex::encode`. -/
def hexEncode (bytes : List UInt8) : String := String.ofList (hexChars bytes)

/-- `hex::decode`; both cases of a digit are accepted. -/
def hexDecode (text : String) : Option (List UInt8) := unhexChars text.toList

theorem hexValue_hexDigit {n : Nat} (small : n < 16) : hexValue (hexDigit n) = some n := by
  interval_cases n <;> decide

theorem unhexChars_hexChars (bytes : List UInt8) : unhexChars (hexChars bytes) = some bytes := by
  induction bytes with
  | nil => rfl
  | cons b rest ih =>
    have small : b.toNat < 256 := b.toNat_lt
    have whole : 16 * (b.toNat / 16) + b.toNat % 16 = b.toNat := Nat.div_add_mod b.toNat 16
    simp only [hexChars,unhexChars,hexValue_hexDigit (show b.toNat / 16 < 16 by omega),
      hexValue_hexDigit (show b.toNat % 16 < 16 by omega),ih,whole,Option.bind_eq_bind,
      Option.bind_some,UInt8.ofNat_toNat]

@[simp] theorem hexDecode_hexEncode (bytes : List UInt8) : hexDecode (hexEncode bytes) = some bytes := by
  simp [hexDecode,hexEncode,unhexChars_hexChars]

theorem hexEncode_injective : Function.Injective hexEncode := by
  intro a b same
  have := congrArg hexDecode same
  simpa using this

/-- A digit that `hex::encode` writes. -/
def isLowerHex (c : Char) : Bool := (48 ≤ c.toNat && c.toNat ≤ 57) || (97 ≤ c.toNat && c.toNat ≤ 102)

theorem isLowerHex_hexDigit {n : Nat} (small : n < 16) : isLowerHex (hexDigit n) = true := by
  interval_cases n <;> decide

theorem hexChars_length (bytes : List UInt8) : (hexChars bytes).length = 2 * bytes.length := by
  induction bytes with
  | nil => rfl
  | cons b rest ih =>
    simp only [hexChars,List.length_cons,ih]
    omega

theorem hexChars_lower {bytes : List UInt8} {c : Char} (member : c ∈ hexChars bytes) :
    isLowerHex c = true := by
  induction bytes with
  | nil => cases member
  | cons b rest ih =>
    have small : b.toNat < 256 := b.toNat_lt
    simp only [hexChars,List.mem_cons] at member
    rcases member with rfl | rfl | member
    · exact isLowerHex_hexDigit (by omega)
    · exact isLowerHex_hexDigit (by omega)
    · exact ih member

theorem trim_ne_of_lowerHex {text : String} (some_ : text.toList ≠ [])
    (lower : ∀ c ∈ text.toList, isLowerHex c = true) : trim text ≠ "" := by
  obtain ⟨c, member⟩ := List.exists_mem_of_ne_nil _ some_
  refine trim_ne_empty member ?_
  have hex := lower c member
  simp only [isLowerHex,Bool.or_eq_true,Bool.and_eq_true,decide_eq_true_eq] at hex
  simp only [isWhiteSpace,Bool.or_eq_false_iff,Bool.and_eq_false_iff,decide_eq_false_iff_not,beq_eq_false_iff_ne]
  omega

end Zaion.Lib
