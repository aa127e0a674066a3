import Mathlib.Data.List.Basic
import Mathlib.Data.List.Infix

/-! A scan for the brace that closes the first one of a text, blind to braces inside string
literals. The depth is an `i32`, which wraps. -/
namespace Zaion.Lib

structure Braces where
  depth : Int32
  inString : Bool
  escapeNext : Bool
  deriving DecidableEq

namespace Braces

def start : Braces := ⟨0, false, false⟩

/-- What one character makes of the state. -/
def next (s : Braces) (c : Char) : Braces :=
  if s.escapeNext then { s with escapeNext := false }
  else if s.inString then
    if c = '\\' then { s with escapeNext := true }
    else if c = '"' then { s with inString := false }
    else s
  else if c = '"' then { s with inString := true }
  else if c = '\x7b' then { s with depth := s.depth + 1 }
  else if c = '\x7d' then { s with depth := s.depth - 1 }
  else s

/-- The character is a brace that brings the depth back to zero. -/
def closes (s : Braces) (c : Char) : Bool :=
  !s.escapeNext && !s.inString && decide (c = '\x7d') && decide (s.depth - 1 = 0)

/-- The state after a text. -/
def after (s : Braces) (text : List Char) : Braces := text.foldl next s

/-- The text up to the closing brace, and what follows it. -/
def candidate : Braces → List Char → Option (List Char × List Char)
  | _, [] => none
  | s, c :: rest =>
    if s.closes c then some ([c], rest) else (candidate (s.next c) rest).map fun parts => (c :: parts.1, parts.2)

/-- The characters outside of string literals. -/
def outside : Braces → List Char → List Char
  | _, [] => []
  | s, c :: rest => if s.inString then outside (s.next c) rest else c :: outside (s.next c) rest

/-- The characters of string literals, the quotes that close them included. -/
def inside : Braces → List Char → List Char
  | _, [] => []
  | s, c :: rest => if s.inString then c :: inside (s.next c) rest else inside (s.next c) rest

section

variable {s : Braces} {text slice rest more : List Char}

@[simp] theorem after_nil (s : Braces) : s.after [] = s := rfl

@[simp] theorem after_cons (s : Braces) (c : Char) (text : List Char) : s.after (c :: text) = (s.next c).after text := rfl

theorem after_append (s : Braces) (a b : List Char) : s.after (a ++ b) = (s.after a).after b := List.foldl_append

theorem candidate_split (found : s.candidate text = some (slice, rest)) : text = slice ++ rest := by
  induction text generalizing s slice with
  | nil => cases found
  | cons c tail ih =>
    rw [candidate] at found
    split at found
    · cases found
      rfl
    · obtain ⟨⟨front, behind⟩, inner, same⟩ := Option.map_eq_some_iff.mp found
      cases same
      rw [ih inner,List.cons_append]

theorem candidate_ne (found : s.candidate text = some (slice, rest)) : slice ≠ [] := by
  rintro rfl
  cases text with
  | nil => cases found
  | cons c tail =>
    rw [candidate] at found
    split at found
    · cases found
    · obtain ⟨_, _, same⟩ := Option.map_eq_some_iff.mp found
      cases same

/-- The scan looks no further than the brace it stops at. -/
theorem candidate_append (found : s.candidate text = some (slice, rest)) (more : List Char) :
    s.candidate (text ++ more) = some (slice, rest ++ more) := by
  induction text generalizing s slice with
  | nil => cases found
  | cons c tail ih =>
    rw [List.cons_append,candidate]
    rw [candidate] at found
    split at found
    · next closing =>
      cases found
      rw [if_pos closing]
    · next going =>
      obtain ⟨⟨front, behind⟩, inner, same⟩ := Option.map_eq_some_iff.mp found
      cases same
      rw [if_neg going,ih inner]
      rfl

theorem candidate_slice (found : s.candidate text = some (slice, rest)) : s.candidate slice = some (slice, []) := by
  induction text generalizing s slice with
  | nil => cases found
  | cons c tail ih =>
    rw [candidate] at found
    split at found
    · next closing =>
      cases found
      rw [candidate,if_pos closing]
    · next going =>
      obtain ⟨⟨front, behind⟩, inner, same⟩ := Option.map_eq_some_iff.mp found
      cases same
      rw [candidate,if_neg going,ih inner]
      rfl

end

/-! Two scans of one text that disagree on which characters are literals. -/

section

variable {s t : Braces} {text : List Char}

theorem outside_append (s : Braces) (a b : List Char) : s.outside (a ++ b) = s.outside a ++ (s.after a).outside b := by
  induction a generalizing s with
  | nil => rfl
  | cons c rest ih =>
    rw [List.cons_append,outside,outside,after_cons,ih]
    split <;> rfl

/-- Inside of a literal, neither quotes nor backslashes change anything but an escape. -/
theorem next_plain (inString : s.inString = true) {c : Char} (quote : c ≠ '"') (slash : c ≠ '\\') :
    (s.next c).inString = true ∧ (s.next c).escapeNext = false := by
  unfold next
  split
  · exact ⟨inString, rfl⟩
  · next fresh => exact ⟨inString, Bool.eq_false_iff.mpr fresh⟩

theorem after_plain (inString : s.inString = true) (fresh : s.escapeNext = false)
    (plain : ∀ c ∈ text, c ≠ '"' ∧ c ≠ '\\') : (s.after text).inString = true ∧ (s.after text).escapeNext = false := by
  induction text generalizing s with
  | nil => exact ⟨inString, fresh⟩
  | cons c rest ih =>
    obtain ⟨quote, slash⟩ := plain c List.mem_cons_self
    obtain ⟨still, clear⟩ := next_plain inString quote slash
    exact ih still clear fun d member => plain d (List.mem_cons_of_mem c member)

/-- The scans are outside of any escape, and one is inside of a literal as the other is not. -/
structure Opposite (s t : Braces) : Prop where
  left : s.escapeNext = false
  right : t.escapeNext = false
  literal : t.inString = !s.inString

theorem Opposite.symm (opposite : Opposite s t) : Opposite t s :=
  ⟨opposite.right, opposite.left, by rw [opposite.literal,Bool.not_not]⟩

/-- The step of the scan that is inside, against the step of the one that is not. -/
theorem Opposite.step (opposite : Opposite s t) (inString : s.inString = true) {c : Char} (slash : c ≠ '\\') :
    Opposite (s.next c) (t.next c) := by
  obtain ⟨left, right, literal⟩ := opposite
  rw [inString,Bool.not_true] at literal
  by_cases quote : c = '"'
  · subst quote
    simp only [Braces.next,left,right,inString,literal,slash,if_true,if_false,Bool.false_eq_true]
    exact ⟨rfl, rfl, rfl⟩
  · simp only [Braces.next,left,right,inString,literal,slash,quote,if_true,if_false,Bool.false_eq_true]
    split
    · exact ⟨left, rfl, by rw [inString]; rfl⟩
    · split
      · exact ⟨left, rfl, by rw [inString]; rfl⟩
      · exact ⟨left, right, by rw [inString,literal]; rfl⟩

theorem Opposite.next (opposite : Opposite s t) {c : Char} (slash : c ≠ '\\') : Opposite (s.next c) (t.next c) := by
  cases side : s.inString with
  | true => exact opposite.step side slash
  | false =>
    have other : t.inString = true := by rw [opposite.literal,side]; rfl
    exact (opposite.symm.step other slash).symm

/-- What one takes for literals the other does not, as long as neither meets a backslash out of them. -/
theorem Opposite.literals (opposite : Opposite s t) (here : '\\' ∉ s.outside text) (there : '\\' ∉ t.outside text) :
    '\\' ∉ text ∧ ∀ c ∈ s.inside text, c ∈ t.outside text := by
  induction text generalizing s t with
  | nil => exact ⟨List.not_mem_nil, fun _ none => none⟩
  | cons c rest ih =>
    rw [outside] at here there
    rw [inside,outside,opposite.literal]
    rw [opposite.literal] at there
    cases side : s.inString with
    | true =>
      rw [side,if_pos rfl] at here
      rw [side,Bool.not_true,if_neg Bool.false_ne_true] at there
      rw [List.mem_cons,not_or] at there
      obtain ⟨slash, there⟩ := there
      obtain ⟨none_, literals⟩ := ih (opposite.next (Ne.symm slash)) here there
      refine ⟨mt List.mem_cons.mp (not_or.mpr ⟨slash, none_⟩), ?_⟩
      intro d member
      obtain rfl | member := List.mem_cons.mp member
      · exact List.mem_cons_self
      · exact List.mem_cons_of_mem c (literals d member)
    | false =>
      rw [side,if_neg Bool.false_ne_true] at here
      rw [side,Bool.not_false,if_pos rfl] at there
      rw [List.mem_cons,not_or] at here
      obtain ⟨slash, here⟩ := here
      obtain ⟨none_, literals⟩ := ih (opposite.next (Ne.symm slash)) here there
      exact ⟨mt List.mem_cons.mp (not_or.mpr ⟨slash, none_⟩), literals⟩

end

/-! An open brace stays open: the depth comes back to zero by wrapping around only. -/

/-- The depth, read without a sign. -/
def level (s : Braces) : Nat := s.depth.toBitVec.toNat

theorem level_next {s : Braces} {c : Char} (going : s.closes c = false) (open_ : 1 ≤ s.level) (room : s.level + 1 < 4294967296) :
    1 ≤ (s.next c).level ∧ (s.next c).level ≤ s.level + 1 := by
  have up : (s.depth + 1).toBitVec.toNat = s.level + 1 := by
    rw [Int32.toBitVec_add,BitVec.toNat_add,Int32.toBitVec_one,level]
    exact Nat.mod_eq_of_lt room
  have down : (s.depth - 1).toBitVec.toNat = s.level - 1 := by
    rw [Int32.toBitVec_sub,Int32.toBitVec_one,BitVec.toNat_sub_of_le]
    · rfl
    · exact BitVec.le_def.mpr open_
  unfold next
  split
  · exact ⟨open_, Nat.le_succ _⟩
  · next fresh =>
    split
    · split
      · exact ⟨open_, Nat.le_succ _⟩
      · split <;> exact ⟨open_, Nat.le_succ _⟩
    · next bare =>
      split
      · exact ⟨open_, Nat.le_succ _⟩
      · split
        · exact ⟨by rw [level,up]; omega, by rw [level,up]⟩
        · split
          · next brace =>
            have above : s.level - 1 ≠ 0 := by
              intro zero
              rw [← down] at zero
              have closed : s.depth - 1 = 0 := Int32.toBitVec_inj.mp (BitVec.eq_of_toNat_eq zero)
              simp [closes,fresh,bare,brace,closed] at going
            exact ⟨by rw [level,down]; omega, by rw [level,down]; omega⟩
          · exact ⟨open_, Nat.le_succ _⟩

theorem level_after {s : Braces} {text : List Char} (unclosed : s.candidate text = none) (open_ : 1 ≤ s.level)
    (room : s.level + text.length < 4294967296) : 1 ≤ (s.after text).level := by
  induction text generalizing s with
  | nil => exact open_
  | cons c rest ih =>
    rw [candidate] at unclosed
    split at unclosed
    · cases unclosed
    · next going =>
      rw [List.length_cons] at room
      obtain ⟨low, high⟩ := level_next (Bool.eq_false_iff.mpr going) open_ (by omega)
      exact ih (Option.map_eq_none_iff.mp unclosed) low (by omega)

end Braces

end Zaion.Lib
