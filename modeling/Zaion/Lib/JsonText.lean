import Zaion.Lib.Json
import Zaion.Lib.Hex

/-! Compact JSON text: a printer that escapes as `serde_json` does and a reader for what
it prints. The reader takes fuel, at most one unit for each character it consumes. -/
namespace Zaion.JsonText

open Lib

/-- Short escapes where JSON has them, `\u00xx` for the other control characters. -/
def escapeControl (n : Nat) : List Char :=
  if n = 8 then ['\\', 'b'] else if n = 9 then ['\\', 't'] else if n = 10 then ['\\', 'n']
  else if n = 12 then ['\\', 'f'] else if n = 13 then ['\\', 'r']
  else ['\\', 'u', '0', '0', hexDigit (n / 16), hexDigit (n % 16)]

def escape (c : Char) : List Char :=
  if c = '"' then ['\\', '"'] else if c = '\\' then ['\\', '\\']
  else if c.toNat < 32 then escapeControl c.toNat else [c]

def quoted (s : String) : List Char := '"' :: (s.toList.flatMap escape ++ ['"'])

mutual

/-- A float is written as zero: no exact text of it is needed here. -/
def print : Json → List Char
  | .null => ['n', 'u', 'l', 'l']
  | .bool true => ['t', 'r', 'u', 'e']
  | .bool false => ['f', 'a', 'l', 's', 'e']
  | .num (.posInt n) => Nat.toDigits 10 n
  | .num (.negInt i) => '-' :: Nat.toDigits 10 i.natAbs
  | .num (.float _) => ['0', '.', '0']
  | .str s => quoted s
  | .arr items => '[' :: (printItems items ++ [']'])
  | .obj fields => '\x7b' :: (printFields fields ++ ['\x7d'])

def printItems : List Json → List Char
  | [] => []
  | [a] => print a
  | a :: b :: rest => print a ++ ',' :: printItems (b :: rest)

def printFields : List (String × Json) → List Char
  | [] => []
  | [(k, a)] => quoted k ++ ':' :: print a
  | (k, a) :: b :: rest => quoted k ++ ':' :: (print a ++ ',' :: printFields (b :: rest))

end

/-- The character an escape stands for, the backslash already read. -/
def readEscape : List Char → Option (Char × List Char)
  | 'u' :: a :: b :: c :: d :: rest => do
    let a ← hexValue a
    let b ← hexValue b
    let c ← hexValue c
    let d ← hexValue d
    some (Char.ofNat (4096 * a + 256 * b + 16 * c + d), rest)
  | c :: rest =>
    if c = '"' ∨ c = '\\' ∨ c = '/' then some (c, rest)
    else if c = 'b' then some (Char.ofNat 8, rest) else if c = 't' then some (Char.ofNat 9, rest)
    else if c = 'n' then some (Char.ofNat 10, rest) else if c = 'f' then some (Char.ofNat 12, rest)
    else if c = 'r' then some (Char.ofNat 13, rest) else none
  | [] => none

/-- The characters up to the closing quote. -/
def readChars : Nat → List Char → Option (List Char × List Char)
  | 0, _ | _ + 1, [] => none
  | fuel + 1, c :: text =>
    if c = '"' then some ([], text)
    else if c = '\\' then
      (readEscape text).bind (fun d => (readChars fuel d.2).map (fun r => (d.1 :: r.1, r.2)))
    else if c.toNat < 32 then none
    else (readChars fuel text).map (fun r => (c :: r.1, r.2))

def readNat (text : List Char) : Option (Nat × List Char) :=
  if text.takeWhile Char.isDigit = [] then none
  else some (Nat.ofDigitChars 10 (text.takeWhile Char.isDigit) 0, text.dropWhile Char.isDigit)

mutual

def readValue : Nat → List Char → Option (Json × List Char)
  | 0, _ => none
  | fuel + 1, text =>
    match text with
    | 'n' :: 'u' :: 'l' :: 'l' :: text => some (.null, text)
    | 't' :: 'r' :: 'u' :: 'e' :: text => some (.bool true, text)
    | 'f' :: 'a' :: 'l' :: 's' :: 'e' :: text => some (.bool false, text)
    | '"' :: text => (readChars fuel text).map (fun r => (.str (String.ofList r.1), r.2))
    | '[' :: ']' :: text => some (.arr [], text)
    | '[' :: text => (readItems fuel text).map (fun r => (.arr r.1, r.2))
    | '\x7b' :: '\x7d' :: text => some (.obj [], text)
    | '\x7b' :: text => (readFields fuel text).map (fun r => (.obj r.1, r.2))
    | '-' :: text => (readNat text).map (fun r => (.num (.negInt (-r.1)), r.2))
    | text => (readNat text).map (fun r => (.num (.posInt r.1), r.2))

def readItems : Nat → List Char → Option (List Json × List Char)
  | 0, _ => none
  | fuel + 1, text =>
    match readValue fuel text with
    | some (a, ',' :: text) => (readItems fuel text).map (fun r => (a :: r.1, r.2))
    | some (a, ']' :: text) => some ([a], text)
    | _ => none

def readFields : Nat → List Char → Option (List (String × Json) × List Char)
  | 0, _ => none
  | fuel + 1, text =>
    match text with
    | '"' :: text =>
      match readChars fuel text with
      | some (key, ':' :: text) =>
        match readValue fuel text with
        | some (a, ',' :: text) =>
          (readFields fuel text).map (fun r => ((String.ofList key, a) :: r.1, r.2))
        | some (a, '\x7d' :: text) => some ([(String.ofList key, a)], text)
        | _ => none
      | _ => none
    | _ => none

end

def toText (v : Json) : String := String.ofList (print v)

def ofText (text : String) : Option Json :=
  match readValue text.toList.length text.toList with
  | some (v, []) => some v
  | _ => none

theorem readEscape_control {n : Nat} (small : n < 32) (text : List Char) :
    ∃ rest, escapeControl n = '\\' :: rest ∧ readEscape (rest ++ text) = some (Char.ofNat n, text) := by
  interval_cases n <;> exact ⟨_, rfl, rfl⟩

theorem readChars_escape (c : Char) (fuel : Nat) (text : List Char) :
    readChars (fuel + 1) (escape c ++ text) =
      (readChars fuel text).map (fun r => (c :: r.1, r.2)) := by
  unfold escape
  split
  next quote => subst quote; simp [readChars,readEscape]
  next noquote =>
  split
  next slash => subst slash; simp [readChars,readEscape]
  next noslash =>
  split
  next small =>
    obtain ⟨rest, shape, read⟩ := readEscape_control small text
    rw [shape,List.cons_append,readChars,if_neg (by decide),if_pos rfl,read]
    simp
  next large => simp [readChars,noquote,noslash,large]

theorem escape_pos (c : Char) : 0 < (escape c).length := by
  have control (n : Nat) : 0 < (escapeControl n).length := by
    unfold escapeControl
    iterate 5
      split
      · exact Nat.succ_pos _
    exact Nat.succ_pos _
  unfold escape
  split
  · exact Nat.succ_pos _
  · split
    · exact Nat.succ_pos _
    · split
      · exact control c.toNat
      · exact Nat.succ_pos _

theorem readChars_text (chars : List Char) (fuel : Nat) (text : List Char)
    (enough : (chars.flatMap escape).length < fuel) :
    readChars fuel (chars.flatMap escape ++ '"' :: text) = some (chars, text) := by
  induction chars generalizing fuel with
  | nil =>
    cases fuel with
    | zero => simp at enough
    | succ fuel => simp [readChars]
  | cons c chars ih =>
    have shorter := escape_pos c
    simp only [List.flatMap_cons,List.length_append] at enough
    cases fuel with
    | zero => omega
    | succ fuel =>
      rw [List.flatMap_cons,List.append_assoc,readChars_escape,ih fuel (by omega)]
      rfl

/-- No digit follows. -/
def Delimited (text : List Char) : Prop := ∀ c ∈ text.head?, c.isDigit = false

theorem readNat_digits (n : Nat) {text : List Char} (delimited : Delimited text) :
    readNat (Nat.toDigits 10 n ++ text) = some (n, text) := by
  have digits : ∀ c ∈ Nat.toDigits 10 n, c.isDigit = true :=
    fun c member => Nat.isDigit_of_mem_toDigits (by decide) (by decide) member
  have front : (Nat.toDigits 10 n ++ text).takeWhile Char.isDigit = Nat.toDigits 10 n := by
    rw [List.takeWhile_append_of_pos digits]
    cases text with
    | nil => simp
    | cons c text => simp [delimited c (by simp)]
  have back : (Nat.toDigits 10 n ++ text).dropWhile Char.isDigit = text := by
    rw [List.dropWhile_append_of_pos digits]
    cases text with
    | nil => simp
    | cons c text => simp [delimited c (by simp)]
  rw [readNat,front,back,if_neg Nat.toDigits_ne_nil,Nat.ofDigitChars_toDigits (by decide) (by decide)]

theorem readValue_digits (n fuel : Nat) {text : List Char} (delimited : Delimited text) :
    readValue (fuel + 1) (Nat.toDigits 10 n ++ text) = some (.num (.posInt n), text) := by
  have read := readNat_digits n delimited
  have digits : ∀ c ∈ Nat.toDigits 10 n, c.isDigit = true :=
    fun c member => Nat.isDigit_of_mem_toDigits (by decide) (by decide) member
  rcases shape : Nat.toDigits 10 n with _ | ⟨c, rest⟩
  · exact absurd shape Nat.toDigits_ne_nil
  · rw [shape] at read
    have digit := digits c (by simp [shape])
    rw [List.cons_append] at read ⊢
    unfold readValue
    split <;> first
      | rename_i h
        rw [(List.cons.inj h).1] at digit
        exact absurd digit (by decide)
      | rw [read]; rfl

/-- A printed value opens with a character that closes nothing. -/
theorem print_head (v : Json) : ∃ c rest, print v = c :: rest ∧ c ≠ ']' := by
  match v with
  | .null | .bool true | .bool false | .num (.negInt _) | .num (.float _) | .str _ | .arr _ | .obj _ =>
    exact ⟨_, _, by rw [print] <;> rfl, by decide⟩
  | .num (.posInt n) =>
    rcases shape : Nat.toDigits 10 n with _ | ⟨c, rest⟩
    · exact absurd shape Nat.toDigits_ne_nil
    · have digit := Nat.isDigit_of_mem_toDigits (c := c) (by decide) (by decide) (shape ▸ List.mem_cons_self)
      exact ⟨c, rest, by rw [print,shape], fun h => absurd digit (by rw [h]; decide)⟩

theorem readValue_bracket {fuel : Nat} {c : Char} {text : List Char} (open_ : c ≠ ']') :
    readValue (fuel + 1) ('[' :: c :: text) =
      (readItems fuel (c :: text)).map (fun r => (.arr r.1, r.2)) := by
  simp [readValue,open_]

theorem delimited_cons {c : Char} {text : List Char} (h : c.isDigit = false) : Delimited (c :: text) := by
  simpa [Delimited] using h

mutual

theorem readValue_print : (v : Json) → v.exact = true → (fuel : Nat) → (text : List Char) →
    (print v).length ≤ fuel → Delimited text → readValue fuel (print v ++ text) = some (v, text)
  | v, _, 0, text, enough, _ => by
    obtain ⟨c, rest, shape, _⟩ := print_head v
    simp [shape] at enough
  | .null, _, fuel + 1, text, _, _ => by simp [print,readValue]
  | .bool true, _, fuel + 1, text, _, _ => by simp [print,readValue]
  | .bool false, _, fuel + 1, text, _, _ => by simp [print,readValue]
  | .num (.posInt n), _, fuel + 1, text, _, delimited => by
    rw [print]; exact readValue_digits n fuel delimited
  | .num (.negInt i), exact, fuel + 1, text, _, delimited => by
    simp only [Json.exact,Bool.and_eq_true,decide_eq_true_eq] at exact
    have negative : -(i.natAbs : Int) = i := by omega
    simp only [print,List.cons_append,readValue,readNat_digits i.natAbs delimited,Option.map_some,negative]
  | .num (.float bits), exact, _ + 1, _, _, _ => by simp [Json.exact] at exact
  | .str s, _, fuel + 1, text, enough, _ => by
    simp only [print,quoted,List.length_cons,List.length_append] at enough
    have read := readChars_text s.toList fuel text (by omega)
    simp [print,quoted,readValue,read]
  | .arr [], _, fuel + 1, text, _, _ => by simp [print,printItems,readValue]
  | .arr (a :: items), exact, fuel + 1, text, enough, _ => by
    simp only [print,List.length_cons,List.length_append] at enough
    have read := readItems_print a items (by simpa [Json.exact] using exact) fuel text (by omega)
    obtain ⟨c, rest, shape, open_⟩ : ∃ c rest, printItems (a :: items) = c :: rest ∧ c ≠ ']' := by
      obtain ⟨c, rest, shape, open_⟩ := print_head a
      cases items <;> simp [printItems,shape,open_]
    simp only [print,List.cons_append,List.append_assoc,shape] at read ⊢
    rw [readValue_bracket open_]
    simp only [List.nil_append] at read ⊢
    rw [read]; rfl
  | .obj [], _, fuel + 1, text, _, _ => by simp [print,printFields,readValue]
  | .obj ((k, a) :: fields), exact, fuel + 1, text, enough, _ => by
    simp only [print,List.length_cons,List.length_append] at enough
    have exact' : Json.exactFields ((k, a) :: fields) = true := by
      simp only [Json.exact,Bool.and_eq_true] at exact
      exact exact.1
    have read := readFields_print k a fields exact' fuel text (by omega)
    obtain ⟨rest, shape⟩ : ∃ rest, printFields ((k, a) :: fields) = '"' :: rest := by
      cases fields <;> simp [printFields,quoted]
    rw [shape] at read
    simp only [print,shape,List.cons_append,List.append_assoc,List.nil_append] at read ⊢
    simp [readValue,read]

theorem readItems_print : (a : Json) → (items : List Json) → Json.exactItems (a :: items) = true →
    (fuel : Nat) → (text : List Char) → (printItems (a :: items)).length < fuel →
    readItems fuel (printItems (a :: items) ++ ']' :: text) = some (a :: items, text)
  | _, _, _, 0, _, enough => by simp at enough
  | a, [], exact, fuel + 1, text, enough => by
    simp only [Json.exactItems,Bool.and_true] at exact
    simp only [printItems] at enough
    have read := readValue_print a exact fuel (']' :: text) (by omega) (delimited_cons (by decide))
    simp [printItems,readItems,read]
  | a, b :: items, exact, fuel + 1, text, enough => by
    rw [Json.exactItems,Bool.and_eq_true] at exact
    simp only [printItems,List.length_append,List.length_cons] at enough
    have read := readValue_print a exact.1 fuel (',' :: (printItems (b :: items) ++ ']' :: text)) (by omega)
      (delimited_cons (by decide))
    have rest := readItems_print b items exact.2 fuel text (by omega)
    simp [printItems,readItems,read,rest]

theorem readFields_print : (k : String) → (a : Json) → (fields : List (String × Json)) →
    Json.exactFields ((k, a) :: fields) = true → (fuel : Nat) → (text : List Char) →
    (printFields ((k, a) :: fields)).length < fuel →
    readFields fuel (printFields ((k, a) :: fields) ++ '\x7d' :: text) = some ((k, a) :: fields, text)
  | _, _, _, _, 0, _, enough => by simp at enough
  | k, a, [], exact, fuel + 1, text, enough => by
    simp only [Json.exactFields,Bool.and_true] at exact
    simp only [printFields,quoted,List.length_append,List.length_cons] at enough
    have key := readChars_text k.toList fuel (':' :: (print a ++ '\x7d' :: text)) (by omega)
    have read := readValue_print a exact fuel ('\x7d' :: text) (by omega) (delimited_cons (by decide))
    simp [printFields,quoted,readFields,key,read]
  | k, a, (l, b) :: fields, exact, fuel + 1, text, enough => by
    rw [Json.exactFields,Bool.and_eq_true] at exact
    simp only [printFields,quoted,List.length_append,List.length_cons] at enough
    have key := readChars_text k.toList fuel
      (':' :: (print a ++ ',' :: (printFields ((l, b) :: fields) ++ '\x7d' :: text))) (by omega)
    have read := readValue_print a exact.1 fuel (',' :: (printFields ((l, b) :: fields) ++ '\x7d' :: text))
      (by omega) (delimited_cons (by decide))
    have rest := readFields_print l b fields exact.2 fuel text (by omega)
    simp [printFields,quoted,readFields,key,read,rest]

end

/-- What is printed without floats reads back. -/
theorem ofText_toText {v : Json} (exact : v.exact = true) : ofText (toText v) = some v := by
  have read := readValue_print v exact (print v).length [] le_rfl (by simp [Delimited])
  rw [List.append_nil] at read
  simp [ofText,toText,read]

end Zaion.JsonText
