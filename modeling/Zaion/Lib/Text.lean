import Mathlib.Data.List.DropRight
import Mathlib.Data.List.Infix

/-! Text operations of the Rust standard library on Lean strings. -/
namespace Zaion.Lib

/-- The Unicode property `White_Space`, which `trim` strips. -/
def isWhiteSpace (c : Char) : Bool :=
  let n := c.toNat
  (9 ≤ n && n ≤ 13) || n == 32 || n == 133 || n == 160 || n == 5760 || (8192 ≤ n && n ≤ 8202) ||
    n == 8232 || n == 8233 || n == 8239 || n == 8287 || n == 12288

/-- `str::trim`. -/
def trim (s : String) : String :=
  String.ofList (((s.toList.dropWhile isWhiteSpace).reverse.dropWhile isWhiteSpace).reverse)

theorem trim_eq (s : String) :
    trim s = String.ofList ((s.toList.dropWhile isWhiteSpace).rdropWhile isWhiteSpace) := rfl

/-- Cutting at the end leaves the first character. -/
theorem dropWhile_rdropWhile {p : Char → Bool} {text : List Char} (start : text.dropWhile p = text) :
    (text.rdropWhile p).dropWhile p = text.rdropWhile p := by
  obtain ⟨cut, split⟩ := List.dropWhile_suffix p (l := text.reverse)
  have split := congrArg List.reverse split
  rw [List.reverse_append,List.reverse_reverse] at split
  unfold List.rdropWhile
  cases kept : (text.reverse.dropWhile p).reverse with
  | nil => rfl
  | cons c more =>
    rw [kept,List.cons_append] at split
    rw [← split,List.dropWhile_cons] at start
    by_cases dropped : p c = true
    · rw [if_pos dropped] at start
      have shorter := (List.dropWhile_sublist p (l := more ++ cut.reverse)).length_le
      rw [start,List.length_cons] at shorter
      omega
    · rw [List.dropWhile_cons,if_neg dropped]

@[simp] theorem trim_trim (s : String) : trim (trim s) = trim s := by
  rw [trim_eq (trim s),trim_eq s,String.toList_ofList,
    dropWhile_rdropWhile (List.dropWhile_idempotent isWhiteSpace s.toList),List.rdropWhile_idempotent]

/-- A text with something in it is not blank. -/
theorem trim_ne_empty {s : String} {c : Char} (member : c ∈ s.toList) (visible : isWhiteSpace c = false) : trim s ≠ "" := by
  intro blank
  rw [trim_eq,String.ofList_eq_empty_iff,List.rdropWhile_eq_nil_iff] at blank
  have none := List.dropWhile_eq_nil_iff.mpr blank
  rw [List.dropWhile_idempotent,List.dropWhile_eq_nil_iff] at none
  rw [none c member] at visible
  cases visible

/-- Only white space is trimmed to nothing. -/
theorem trim_eq_empty_iff {s : String} : trim s = "" ↔ ∀ c ∈ s.toList, isWhiteSpace c = true := by
  constructor
  · intro blank c member
    by_contra visible
    exact trim_ne_empty member (Bool.eq_false_iff.mpr visible) blank
  · intro white
    rw [trim_eq,List.dropWhile_eq_nil_iff.mpr white]
    rfl

/-- `str::contains` of a text. -/
def containsText (s needle : String) : Bool := decide (needle.toList <:+: s.toList)

/-- `str::starts_with` of a text. -/
def startsWithText (s start : String) : Bool := decide (start.toList <+: s.toList)

def asciiLower (c : Char) : Char := if 65 ≤ c.toNat ∧ c.toNat ≤ 90 then Char.ofNat (c.toNat + 32) else c

/-- `str::to_ascii_lowercase`. -/
def toAsciiLowercase (s : String) : String := String.ofList (s.toList.map asciiLower)

/-- `&text[..n]`, `none` where that index is past the end or inside a character. -/
def firstBytes : Nat → List Char → Option (List Char)
  | 0, _ => some []
  | _, [] => none
  | n, c :: rest => if c.utf8Size ≤ n then (firstBytes (n - c.utf8Size) rest).map (c :: ·) else none

theorem byteArray_loop (bytes : ByteArray) (i : Nat) (read : List UInt8) :
    ByteArray.toList.loop bytes i read = read.reverse ++ bytes.data.toList.drop i := by
  fun_induction ByteArray.toList.loop bytes i read with
  | case1 i read inside ih =>
    have bound : i < bytes.data.toList.length := inside
    have here : bytes.get! i = bytes.data.toList[i] := by
      obtain ⟨data⟩ := bytes
      exact getElem!_pos data i inside
    rw [ih,List.drop_eq_getElem_cons bound,List.reverse_cons,here,List.append_assoc,List.singleton_append]
  | case2 i read outside =>
    have bound : bytes.data.toList.length ≤ i := Nat.le_of_not_lt outside
    rw [List.drop_eq_nil_of_le bound,List.append_nil]

theorem join_eq_empty_iff {texts : List String} : String.join texts = "" ↔ ∀ text ∈ texts, text = "" := by
  induction texts with
  | nil => simp
  | cons text rest ih => simp [String.append_eq_empty_iff,ih]

/-- Different texts have different UTF-8 bytes. -/
theorem toByteArray_toList_injective : Function.Injective fun s : String => s.toByteArray.toList := by
  intro a b same
  simp only [ByteArray.toList,byteArray_loop,List.reverse_nil,List.nil_append,List.drop_zero] at same
  exact String.toByteArray_inj.mp (ByteArray.ext (Array.toList_inj.mp same))

end Zaion.Lib
