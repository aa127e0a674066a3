import Zaion.Aci.Gate
import Zaion.Lib.Nested
import Zaion.Tools.Lines

/-! The gate on brackets: a scanner with counters, flags and one remembered character, and the text it is to read, with
its literals and comments. -/
namespace Zaion.Aci

open Lib
open Tools (lines stripCr lines_closed)

structure BracketScan where
  round : Int
  curly : Int
  square : Int
  inStringDouble : Bool
  inStringSingle : Bool
  inBlockComment : Bool
  prev : Char

namespace BracketScan

/-- What a character outside of literals and comments does. -/
def visit (s : BracketScan) (ch : Char) : BracketScan :=
  if ch = '"' then { s with inStringDouble := true }
  else if ch = '\'' then { s with inStringSingle := true }
  else if ch = '*' then { s with inBlockComment := decide (s.prev = '/') }
  else if ch = '(' then { s with round := s.round + 1 }
  else if ch = ')' then { s with round := s.round - 1 }
  else if ch = '{' then { s with curly := s.curly + 1 }
  else if ch = '}' then { s with curly := s.curly - 1 }
  else if ch = '[' then { s with square := s.square + 1 }
  else if ch = ']' then { s with square := s.square - 1 }
  else s

end BracketScan

def unmatchedError (lineNumber : Nat) (s : BracketScan) : SyntaxError where
  line := some lineNumber
  col := none
  message := "unmatched closing bracket on line " ++ toString lineNumber ++ " (round=" ++ toString s.round ++ ", curly=" ++
    toString s.curly ++ ", square=" ++ toString s.square ++ ")"

def unbalancedError (s : BracketScan) : SyntaxError where
  line := none
  col := none
  message := "unbalanced brackets: unclosed ( x" ++ toString (max s.round 0) ++ " \x7b x" ++ toString (max s.curly 0) ++
    " [ x" ++ toString (max s.square 0)

/-- The characters of one line; the flag says that the rest of it is a comment. -/
def scanLine (lineNumber : Nat) : BracketScan → Bool → List Char → Except SyntaxError BracketScan
  | s, _, [] => .ok s
  | s, lineComment, ch :: rest =>
    if s.inBlockComment then
      scanLine lineNumber { s with inBlockComment := !decide (s.prev = '*' ∧ ch = '/'), prev := ch } lineComment rest
    else if lineComment then .ok s
    else if s.inStringDouble then
      scanLine lineNumber { s with inStringDouble := !decide (ch = '"' ∧ s.prev ≠ '\\'), prev := ch } lineComment rest
    else if s.inStringSingle then
      scanLine lineNumber { s with inStringSingle := !decide (ch = '\'' ∧ s.prev ≠ '\\'), prev := ch } lineComment rest
    else if (s.visit ch).round < 0 ∨ (s.visit ch).curly < 0 ∨ (s.visit ch).square < 0 then
      .error (unmatchedError lineNumber (s.visit ch))
    else scanLine lineNumber { s.visit ch with prev := ch } (decide (ch = '/' ∧ s.prev = '/')) rest

def scanLines : Nat → BracketScan → List (List Char) → Except SyntaxError BracketScan
  | _, s, [] => .ok s
  | i, s, line :: rest => do
    let s ← scanLine (i + 1) s false line
    scanLines (i + 1) s rest

/-- `check_bracket_balance`. -/
def checkBracketBalance (content : String) : Option SyntaxError :=
  match scanLines 0 ⟨0, 0, 0, false, false, false, Char.ofNat 0⟩ ((lines content).map String.toList) with
  | .error e => some e
  | .ok s => if s.round ≠ 0 ∨ s.curly ≠ 0 ∨ s.square ≠ 0 then some (unbalancedError s) else none

/-- Where in a text one stands: in code, with a slash just before or not; in a literal, with a character escaped or not;
in a comment. -/
inductive Mode where
  | code (slash : Bool)
  | literal (quote : Char) (escaped : Bool)
  | lineComment
  | blockComment (star : Bool)
  deriving DecidableEq

def Mode.next : Mode → Char → Mode
  | .code slash, c =>
    if slash = true ∧ c = '/' then .lineComment
    else if slash = true ∧ c = '*' then .blockComment false
    else if c = '"' ∨ c = '\'' then .literal c false
    else .code (decide (c = '/'))
  | .literal quote true, _ => .literal quote false
  | .literal quote false, c =>
    if c = '\\' then .literal quote true else if c = quote then .code false else .literal quote false
  | .lineComment, c => if c = '\n' then .code false else .lineComment
  | .blockComment star, c => if star = true ∧ c = '/' then .code false else .blockComment (decide (c = '*'))

/-- The closer of an opening bracket. -/
def bracketPartner (c : Char) : Option Char :=
  if c = '(' then some ')' else if c = '{' then some '}' else if c = '[' then some ']' else none

def isBracket (c : Char) : Bool := c ∈ ['(', ')', '{', '}', '[', ']']

/-- The brackets outside of literals and comments. -/
def outside : Mode → List Char → List Char
  | _, [] => []
  | .code slash, c :: rest => (if isBracket c then [c] else []) ++ outside (Mode.next (.code slash) c) rest
  | mode, c :: rest => outside (mode.next c) rest

/-- The gate accepts the text exactly when its brackets are properly nested. -/
def GateExact (content : String) : Prop :=
  checkBracketBalance content = none ↔ Nested bracketPartner (outside (.code false) content.toList)

/-- The character remembered means what it stands for: a slash before a second one or a star is the slash of code just
before, a star before a slash the star of the comment just before, and no quote that closes a literal has a backslash
before it. -/
def Mode.apart : Mode → Char → Char → Bool
  | .code slash, prev, c => decide ((c = '/' ∨ c = '*') → prev = '/' → slash = true)
  | .literal quote escaped, prev, c => decide (escaped = false → c = quote → prev ≠ '\\')
  | .lineComment, _, _ => true
  | .blockComment star, prev, c => decide (c = '/' → prev = '*' → star = true)

/-- Neither line breaks nor the characters behind the mark of a line comment are remembered. -/
def clearFrom : Mode → Char → List Char → Bool
  | _, _, [] => true
  | mode, prev, c :: rest =>
    mode.apart prev c && clearFrom (mode.next c)
      (if mode = .lineComment ∨ c = '\n' ∨ (c = '\r' ∧ rest.head? = some '\n') then prev else c) rest

/-- No character remembered is mistaken for another, from the start of the text to its end. -/
def ClearText (content : String) : Prop := clearFrom (.code false) (Char.ofNat 0) content.toList = true

/-- What the scanner holds in a mode, with the counts of open brackets. -/
def Mode.scan (mode : Mode) (prev : Char) (open_ : Nat × Nat × Nat) : BracketScan where
  round := open_.1
  curly := open_.2.1
  square := open_.2.2
  inStringDouble := match mode with | .literal quote _ => decide (quote = '"') | _ => false
  inStringSingle := match mode with | .literal quote _ => decide (quote = '\'') | _ => false
  inBlockComment := match mode with | .blockComment _ => true | _ => false
  prev := prev

/-- The flags of a mode are read off the last character. -/
def Mode.Sound : Mode → Char → Prop
  | .code slash, prev => slash = true → prev = '/'
  | .literal quote escaped, prev => (quote = '"' ∨ quote = '\'') ∧ (escaped = true → prev = '\\')
  | .lineComment, _ => True
  | .blockComment star, prev => star = true → prev = '*'

/-- Each kind counted on. -/
def settle (open_ : Nat × Nat × Nat) (s : List Char) : Option (Nat × Nat × Nat) := do
  let round ← tally '(' ')' open_.1 s
  let curly ← tally '{' '}' open_.2.1 s
  let square ← tally '[' ']' open_.2.2 s
  some (round, curly, square)

/-- The mode after some characters. -/
def Mode.run (mode : Mode) (text : List Char) : Mode := text.foldl Mode.next mode

/-- The character remembered after part of a line. -/
def remembered : Mode → Char → List Char → Char
  | _, prev, [] => prev
  | mode, prev, c :: rest => remembered (mode.next c) (if mode = .lineComment then prev else c) rest

/-- The same condition within a line. -/
def clearLine : Mode → Char → List Char → Bool
  | _, _, [] => true
  | mode, prev, c :: rest =>
    mode.apart prev c && clearLine (mode.next c) (if mode = .lineComment then prev else c) rest

section

variable {mode : Mode} {prev c : Char} {open_ : Nat × Nat × Nat} {lineNumber : Nat} {rest : List Char}

theorem Mode.Sound.next (sound : mode.Sound prev) (inLine : c ≠ '\n') :
    (mode.next c).Sound (if mode = .lineComment then prev else c) := by
  cases mode with
  | code slash =>
    simp only [Mode.next]
    split
    · trivial
    · split
      · exact nofun
      · split
        · next quote => exact ⟨quote, nofun⟩
        · intro slash'
          simpa using slash'
  | literal quote escaped =>
    cases escaped with
    | true => exact ⟨sound.1, nofun⟩
    | false =>
      simp only [Mode.next]
      split
      · next back => exact ⟨sound.1, fun _ => by simpa using back⟩
      · split
        · exact nofun
        · exact ⟨sound.1, nofun⟩
  | lineComment => simp [Mode.next,inLine,Mode.Sound]
  | blockComment star =>
    simp only [Mode.next]
    split
    · exact nofun
    · intro star'
      simpa using star'

theorem scanLine_comment : scanLine lineNumber (Mode.lineComment.scan prev open_) true (c :: rest) =
    .ok (Mode.lineComment.scan prev open_) := by
  simp [scanLine,Mode.scan]

theorem scanLine_block {star : Bool} (sound : (Mode.blockComment star).Sound prev)
    (apart : (Mode.blockComment star).apart prev c = true) :
    scanLine lineNumber ((Mode.blockComment star).scan prev open_) false (c :: rest) =
      scanLine lineNumber (((Mode.blockComment star).next c).scan c open_) false rest := by
  have same : (star = true ∧ c = '/') ↔ (prev = '*' ∧ c = '/') :=
    ⟨fun both => ⟨sound both.1, both.2⟩, fun both => ⟨of_decide_eq_true apart both.2 both.1, both.2⟩⟩
  rw [scanLine,Mode.next]
  by_cases closing : star = true ∧ c = '/'
  · simp [Mode.scan,same.mp closing,closing]
  · have open' := mt same.mpr closing
    simp [Mode.scan,open',closing]

theorem scanLine_literal {quote : Char} {escaped : Bool} (sound : (Mode.literal quote escaped).Sound prev)
    (apart : (Mode.literal quote escaped).apart prev c = true) :
    scanLine lineNumber ((Mode.literal quote escaped).scan prev open_) false (c :: rest) =
      scanLine lineNumber (((Mode.literal quote escaped).next c).scan c open_) false rest := by
  obtain ⟨kind, back⟩ := sound
  cases escaped with
  | true =>
    obtain rfl := back rfl
    rcases kind with rfl | rfl <;> simp [scanLine,Mode.scan,Mode.next]
  | false =>
    have closing : c = quote → prev ≠ '\\' := of_decide_eq_true apart rfl
    by_cases escape : c = '\\'
    · subst escape
      rcases kind with rfl | rfl <;> simp [scanLine,Mode.scan,Mode.next]
    · by_cases last : c = quote
      · have unescaped := closing last
        subst last
        rcases kind with rfl | rfl <;> simp [scanLine,Mode.scan,Mode.next,unescaped]
      · rcases kind with rfl | rfl <;> simp [scanLine,Mode.scan,Mode.next,escape,last]

theorem scanLine_code {slash : Bool} (sound : (Mode.code slash).Sound prev) (apart : (Mode.code slash).apart prev c = true)
    (plain : isBracket c = false) :
    scanLine lineNumber ((Mode.code slash).scan prev open_) false (c :: rest) =
      scanLine lineNumber (((Mode.code slash).next c).scan c open_) (decide ((Mode.code slash).next c = .lineComment)) rest := by
  have marks : (c = '/' ∨ c = '*') → (prev = '/' ↔ slash = true) :=
    fun mark => ⟨of_decide_eq_true apart mark, sound⟩
  have nonneg (n : Nat) : ¬ (n : Int) < 0 := by omega
  by_cases double : c = '"'
  · subst double
    simp [scanLine,Mode.scan,Mode.next,BracketScan.visit,nonneg]
  by_cases single : c = '\''
  · subst single
    simp [scanLine,Mode.scan,Mode.next,BracketScan.visit,nonneg]
  by_cases star : c = '*'
  · subst star
    have same := marks (.inr rfl)
    cases slash <;> simp [scanLine,Mode.scan,Mode.next,BracketScan.visit,nonneg,same]
  by_cases bar : c = '/'
  · subst bar
    have same := marks (.inl rfl)
    cases slash <;> simp [scanLine,Mode.scan,Mode.next,BracketScan.visit,nonneg,same]
  · simp only [isBracket,List.mem_cons,List.not_mem_nil,or_false,decide_eq_false_iff_not,not_or] at plain
    simp [scanLine,Mode.scan,Mode.next,BracketScan.visit,nonneg,double,single,star,bar,plain]

theorem scanLine_bracket {slash : Bool} (bracket : isBracket c = true) :
    (scanLine lineNumber ((Mode.code slash).scan prev open_) false (c :: rest)).toOption =
      (settle open_ [c]).bind fun open' =>
        (scanLine lineNumber (((Mode.code slash).next c).scan c open') false rest).toOption := by
  obtain ⟨round, curly, square⟩ := open_
  have nonneg (n : Nat) : ¬ (n : Int) < 0 := by omega
  have up (n : Nat) : ¬ (n : Int) + 1 < 0 := by omega
  simp only [isBracket,List.mem_cons,List.not_mem_nil,or_false,decide_eq_true_eq] at bracket
  rcases bracket with rfl | rfl | rfl | rfl | rfl | rfl
  · simp [scanLine,Mode.scan,Mode.next,BracketScan.visit,nonneg,up,settle,tally]
  · cases round <;> simp [scanLine,Mode.scan,Mode.next,BracketScan.visit,nonneg,settle,tally,Except.toOption]
  · simp [scanLine,Mode.scan,Mode.next,BracketScan.visit,nonneg,up,settle,tally]
  · cases curly <;> simp [scanLine,Mode.scan,Mode.next,BracketScan.visit,nonneg,settle,tally,Except.toOption]
  · simp [scanLine,Mode.scan,Mode.next,BracketScan.visit,nonneg,up,settle,tally]
  · cases square <;> simp [scanLine,Mode.scan,Mode.next,BracketScan.visit,nonneg,settle,tally,Except.toOption]

theorem settle_append (open_ : Nat × Nat × Nat) (s t : List Char) :
    settle open_ (s ++ t) = (settle open_ s).bind fun open' => settle open' t := by
  simp only [settle,tally_append]
  cases tally '(' ')' open_.1 s <;> cases tally '{' '}' open_.2.1 s <;> cases tally '[' ']' open_.2.2 s <;>
    simp [Option.bind_eq_bind]

@[simp] theorem settle_nil (open_ : Nat × Nat × Nat) : settle open_ [] = some open_ := rfl

/-- The rest of a line comment is passed over. -/
theorem run_comment {line : List Char} (inLine : '\n' ∉ line) (prev : Char) :
    outside .lineComment line = [] ∧ Mode.run .lineComment line = .lineComment ∧ remembered .lineComment prev line = prev := by
  induction line with
  | nil => exact ⟨rfl, rfl, rfl⟩
  | cons c rest ih =>
    obtain ⟨other, later⟩ := not_or.mp (mt List.mem_cons.mpr inLine)
    have stays : Mode.next .lineComment c = .lineComment := if_neg fun same => other same.symm
    obtain ⟨none_, mode, kept⟩ := ih later
    refine ⟨?_, ?_, ?_⟩
    · rw [outside,stays,none_]
      exact nofun
    · rw [Mode.run,List.foldl_cons,stays]
      exact mode
    · rw [remembered,if_pos rfl,stays]
      exact kept

theorem next_of_literal {quote : Char} {escaped : Bool} : (Mode.literal quote escaped).next c ≠ .lineComment := by
  cases escaped with
  | true => exact nofun
  | false =>
    simp only [Mode.next]
    split
    · exact nofun
    · split <;> exact nofun

theorem next_of_block {star : Bool} : (Mode.blockComment star).next c ≠ .lineComment := by
  simp only [Mode.next]
  split <;> exact nofun

theorem next_of_bracket {slash : Bool} (bracket : isBracket c = true) : (Mode.code slash).next c ≠ .lineComment := by
  simp only [isBracket,List.mem_cons,List.not_mem_nil,or_false,decide_eq_true_eq] at bracket
  rcases bracket with rfl | rfl | rfl | rfl | rfl | rfl <;> simp [Mode.next]

/-- A line that is clear is read as it is meant. -/
theorem scanLine_run {line : List Char} (sound : mode.Sound prev) (clear : clearLine mode prev line = true)
    (inLine : '\n' ∉ line) :
    (scanLine lineNumber (mode.scan prev open_) (decide (mode = .lineComment)) line).toOption =
      (settle open_ (outside mode line)).map fun open' => (mode.run line).scan (remembered mode prev line) open' := by
  induction line generalizing mode prev open_ with
  | nil => rfl
  | cons c rest ih =>
    obtain ⟨here, later⟩ := Bool.and_eq_true_iff.mp clear
    obtain ⟨other, inRest⟩ := not_or.mp (mt List.mem_cons.mpr inLine)
    have next := sound.next fun same => other same.symm
    cases mode with
    | lineComment =>
      obtain ⟨none_, stays, kept⟩ := run_comment inLine prev
      rw [none_,stays,kept,decide_eq_true rfl,scanLine_comment]
      rfl
    | blockComment star =>
      have stays : (Mode.blockComment star).next c ≠ .lineComment := next_of_block
      have run := @ih _ _ open_ next later inRest
      rw [decide_eq_false stays] at run
      rw [decide_eq_false nofun,scanLine_block sound here]
      exact run
    | literal quote escaped =>
      have stays : (Mode.literal quote escaped).next c ≠ .lineComment := next_of_literal
      have run := @ih _ _ open_ next later inRest
      rw [decide_eq_false stays] at run
      rw [decide_eq_false nofun,scanLine_literal sound here]
      exact run
    | code slash =>
      rw [decide_eq_false nofun]
      cases bracket : isBracket c with
      | false =>
        rw [scanLine_code sound here bracket,outside,bracket]
        exact ih next later inRest
      | true =>
        rw [scanLine_bracket bracket,outside,bracket,if_pos rfl,settle_append,Option.map_bind]
        congr 1
        funext open'
        have run := @ih _ _ open' next later inRest
        rw [decide_eq_false (next_of_bracket bracket)] at run
        exact run

theorem outside_append (mode : Mode) (a b : List Char) : outside mode (a ++ b) = outside mode a ++ outside (mode.run a) b := by
  induction a generalizing mode with
  | nil => rfl
  | cons c rest ih =>
    cases mode with
    | code slash =>
      rw [List.cons_append,outside,ih,outside,List.append_assoc]
      rfl
    | literal quote escaped => exact ih _
    | lineComment => exact ih _
    | blockComment star => exact ih _

theorem outside_plain (plain : isBracket c = false) : outside mode (c :: rest) = outside (mode.next c) rest := by
  cases mode with
  | code slash => rw [outside,plain]; rfl
  | literal quote escaped => rfl
  | lineComment => rfl
  | blockComment star => rfl

theorem stripCr_cases (line : List Char) :
    (stripCr line = line ∧ line.getLast? ≠ some '\r') ∨ line = stripCr line ++ ['\r'] := by
  unfold stripCr
  split
  · next ends =>
    obtain ⟨init, rfl⟩ := List.getLast?_eq_some_iff.mp ends
    exact .inr (by rw [List.dropLast_concat])
  · next ends => exact .inl ⟨rfl, ends⟩

theorem stripCr_inLine {line : List Char} (inLine : '\n' ∉ line) : '\n' ∉ stripCr line := by
  rcases stripCr_cases line with ⟨same, -⟩ | same
  · rwa [same]
  · rw [same] at inLine
    exact fun member => inLine (List.mem_append_left _ member)

/-- A carriage return before the end of a line changes nothing. -/
theorem next_cr (sound : mode.Sound prev) : (mode.next '\r').next '\n' = mode.next '\n' := by
  cases mode with
  | code slash => cases slash <;> rfl
  | literal quote escaped =>
    rcases sound.1 with rfl | rfl <;> cases escaped <;> rfl
  | lineComment => rfl
  | blockComment star => cases star <;> rfl

/-- A line break keeps what the scanner holds, and ends a line comment. -/
theorem next_break (sound : mode.Sound prev) : (mode.next '\n').Sound prev ∧ mode.next '\n' ≠ .lineComment ∧
    (mode.next '\n').scan prev open_ = mode.scan prev open_ := by
  cases mode with
  | code slash => cases slash <;> exact ⟨nofun, nofun, rfl⟩
  | literal quote escaped =>
    rcases sound.1 with rfl | rfl <;> cases escaped <;> exact ⟨⟨by decide, nofun⟩, nofun, rfl⟩
  | lineComment => exact ⟨nofun, nofun, rfl⟩
  | blockComment star => cases star <;> exact ⟨nofun, nofun, rfl⟩

theorem sound_run {line : List Char} (sound : mode.Sound prev) (inLine : '\n' ∉ line) :
    (mode.run line).Sound (remembered mode prev line) := by
  induction line generalizing mode prev with
  | nil => exact sound
  | cons c rest ih =>
    obtain ⟨other, later⟩ := not_or.mp (mt List.mem_cons.mpr inLine)
    exact ih (sound.next fun same => other same.symm) later

/-- Part of a line is clear on its own, unless its end is a carriage return before a line feed. -/
theorem clear_append {a b : List Char} (inLine : '\n' ∉ a) (whole : a.getLast? = some '\r' → b.head? ≠ some '\n') :
    clearFrom mode prev (a ++ b) =
      (clearLine mode prev a && clearFrom (mode.run a) (remembered mode prev a) b) := by
  induction a generalizing mode prev with
  | nil => rfl
  | cons c rest ih =>
    obtain ⟨other, inRest⟩ := not_or.mp (mt List.mem_cons.mpr inLine)
    have unbroken : ¬ c = '\n' := fun same => other same.symm
    have shown : ¬ (c = '\r' ∧ (rest ++ b).head? = some '\n') := by
      rintro ⟨rfl, head⟩
      cases rest with
      | nil => exact whole rfl head
      | cons d more =>
        cases head
        exact inRest List.mem_cons_self
    have later : rest.getLast? = some '\r' → b.head? ≠ some '\n' := by
      cases rest with
      | nil => exact nofun
      | cons d more => exact whole
    rw [List.cons_append,clearFrom,clearLine,Bool.and_assoc]
    simp only [unbroken,shown,or_false]
    rw [ih inRest later]
    rfl

/-- A closed line and the rest of the text are clear with the text. -/
theorem clear_line {line : List Char} (clear : clearFrom mode prev (line ++ '\n' :: rest) = true) (inLine : '\n' ∉ line)
    (sound : mode.Sound prev) :
    clearLine mode prev (stripCr line) = true ∧
      clearFrom ((mode.run (stripCr line)).next '\n') (remembered mode prev (stripCr line)) rest = true := by
  rcases stripCr_cases line with ⟨same, whole⟩ | same
  · rw [clear_append inLine (fun ends => absurd ends whole)] at clear
    obtain ⟨here, later⟩ := Bool.and_eq_true_iff.mp clear
    rw [same]
    refine ⟨here, ?_⟩
    rw [clearFrom,if_pos (.inr (.inl rfl))] at later
    exact (Bool.and_eq_true_iff.mp later).2
  · have core := stripCr_inLine inLine
    rw [same,List.append_assoc,List.singleton_append,clear_append core (fun _ => by simp)] at clear
    obtain ⟨here, later⟩ := Bool.and_eq_true_iff.mp clear
    refine ⟨here, ?_⟩
    rw [clearFrom,if_pos (.inr (.inr ⟨rfl, rfl⟩)),clearFrom,if_pos (.inr (.inl rfl))] at later
    rw [← next_cr (sound_run sound core)]
    exact (Bool.and_eq_true_iff.mp (Bool.and_eq_true_iff.mp later).2).2

/-- The brackets of a closed line and those of the rest. -/
theorem outside_line {line : List Char} (sound : mode.Sound prev) (inLine : '\n' ∉ line) : outside mode (line ++ '\n' :: rest) =
    outside mode (stripCr line) ++ outside ((mode.run (stripCr line)).next '\n') rest := by
  rcases stripCr_cases line with ⟨same, -⟩ | same
  · rw [same,outside_append,outside_plain rfl]
  · have after := next_cr (sound_run sound (stripCr_inLine inLine))
    conv_lhs => rw [same]
    rw [List.append_assoc,List.singleton_append,outside_append,outside_plain rfl,outside_plain rfl,after]

end

/-- What the scanner has counted. -/
def BracketScan.counts (s : BracketScan) : Int × Int × Int := (s.round, s.curly, s.square)

def asCounts (open_ : Nat × Nat × Nat) : Int × Int × Int := (open_.1, open_.2.1, open_.2.2)

theorem toOption_bind {α β ε : Type} (x : Except ε α) (f : α → Except ε β) :
    (x >>= f).toOption = x.toOption.bind fun a => (f a).toOption := by
  cases x <;> rfl

/-- All lines of a text that is clear are read as they are meant. -/
theorem scanLines_run {front : List (List Char)} {last : List Char} (plain : ∀ line ∈ front, '\n' ∉ line)
    (plainLast : '\n' ∉ last) (i : Nat) {mode : Mode} {prev : Char} (open_ : Nat × Nat × Nat) (sound : mode.Sound prev)
    (code : mode ≠ .lineComment) (clear : clearFrom mode prev (closed '\n' front ++ last) = true) :
    (scanLines i (mode.scan prev open_) (front.map stripCr ++ if last = [] then [] else [last])).toOption.map
        BracketScan.counts =
      (settle open_ (outside mode (closed '\n' front ++ last))).map asCounts := by
  induction front generalizing i mode prev open_ with
  | nil =>
    by_cases none_ : last = []
    · rw [if_pos none_,none_]
      rfl
    · rw [closed_nil,List.nil_append] at clear ⊢
      have whole := clear
      rw [← List.append_nil last,clear_append plainLast (fun _ => by simp)] at whole
      have run := @scanLine_run mode prev open_ (i + 1) last sound (Bool.and_eq_true_iff.mp whole).1 plainLast
      rw [decide_eq_false code] at run
      rw [if_neg none_,List.map_nil,List.nil_append,scanLines,toOption_bind,run,Option.map_bind]
      simp only [scanLines]
      cases settle open_ (outside mode last) <;> rfl
  | cons line rest ih =>
    obtain ⟨inLine, later⟩ := List.forall_mem_cons.mp plain
    rw [closed_cons,List.append_assoc,List.cons_append] at clear ⊢
    obtain ⟨here, after⟩ := clear_line clear inLine sound
    have run := @scanLine_run mode prev open_ (i + 1) (stripCr line) sound here (stripCr_inLine inLine)
    rw [decide_eq_false code] at run
    rw [outside_line sound inLine,settle_append,List.map_cons,List.cons_append,scanLines,toOption_bind,run]
    cases counted : settle open_ (outside mode (stripCr line)) with
    | none => rfl
    | some open' =>
      obtain ⟨sound', code', same⟩ := next_break (sound_run sound (stripCr_inLine inLine))
      have rest_ := ih later (i + 1) open' sound' code' after
      rw [same] at rest_
      exact rest_

theorem bracketPartner_some {o c : Char} (pair : bracketPartner o = some c) :
    (o = '(' ∧ c = ')') ∨ (o = '{' ∧ c = '}') ∨ (o = '[' ∧ c = ']') := by
  unfold bracketPartner at pair
  split at pair
  · next round => exact .inl ⟨round, (Option.some.inj pair).symm⟩
  · split at pair
    · next curly => exact .inr (.inl ⟨curly, (Option.some.inj pair).symm⟩)
    · split at pair
      · next square => exact .inr (.inr ⟨square, (Option.some.inj pair).symm⟩)
      · cases pair

theorem bracketPartner_closers (o c : Char) (pair : bracketPartner o = some c) : bracketPartner c = none := by
  rcases bracketPartner_some pair with ⟨-, rfl⟩ | ⟨-, rfl⟩ | ⟨-, rfl⟩ <;> rfl

theorem bracketPartner_own (o o' c : Char) (pair : bracketPartner o = some c) (pair' : bracketPartner o' = some c) : o' = o := by
  rcases bracketPartner_some pair with ⟨rfl, rfl⟩ | ⟨rfl, rfl⟩ | ⟨rfl, rfl⟩ <;>
    rcases bracketPartner_some pair' with ⟨rfl, same⟩ | ⟨rfl, same⟩ | ⟨rfl, same⟩ <;> first | rfl | cases same

theorem settle_zero_iff {s : List Char} : settle (0, 0, 0) s = some (0, 0, 0) ↔ EachBalanced bracketPartner s := by
  have kinds : EachBalanced bracketPartner s ↔
      tally '(' ')' 0 s = some 0 ∧ tally '{' '}' 0 s = some 0 ∧ tally '[' ']' 0 s = some 0 := by
    constructor
    · intro each
      exact ⟨each '(' ')' rfl, each '{' '}' rfl, each '[' ']' rfl⟩
    · rintro ⟨round, curly, square⟩ o c pair
      rcases bracketPartner_some pair with ⟨rfl, rfl⟩ | ⟨rfl, rfl⟩ | ⟨rfl, rfl⟩
      · exact round
      · exact curly
      · exact square
  rw [kinds,settle]
  cases tally '(' ')' 0 s <;> cases tally '{' '}' 0 s <;> cases tally '[' ']' 0 s <;> simp

/-- On a text that is clear the gate asks that each kind of bracket is balanced on its own. -/
theorem check_none_iff {content : String} (clear : ClearText content) :
    checkBracketBalance content = none ↔ EachBalanced bracketPartner (outside (.code false) content.toList) := by
  obtain ⟨front, last, text, plain, plainLast⟩ := exists_closed '\n' content.toList
  rw [ClearText,text] at clear
  have run := scanLines_run plain plainLast 0 (0, 0, 0) (show (Mode.code false).Sound (Char.ofNat 0) from nofun) nofun clear
  rw [← lines_closed text plain plainLast,← text] at run
  rw [← settle_zero_iff]
  have start : (Mode.code false).scan (Char.ofNat 0) (0, 0, 0) = ⟨0, 0, 0, false, false, false, Char.ofNat 0⟩ := rfl
  have zero (counts : Nat × Nat × Nat) : asCounts counts = (0, 0, 0) ↔ counts = (0, 0, 0) := by
    obtain ⟨round, curly, square⟩ := counts
    simp [asCounts]
  rw [start] at run
  have settled : settle (0, 0, 0) (outside (.code false) content.toList) = some (0, 0, 0) ↔
      (settle (0, 0, 0) (outside (.code false) content.toList)).map asCounts = some (0, 0, 0) := by
    cases settle (0, 0, 0) (outside (.code false) content.toList) with
    | none => simp
    | some counts => simp [zero]
  rw [settled,← run,checkBracketBalance]
  cases scanLines 0 ⟨0, 0, 0, false, false, false, Char.ofNat 0⟩ ((lines content).map String.toList) with
  | error e => simp [Except.toOption]
  | ok s => simp [Except.toOption,BracketScan.counts]

/-- On a text that is clear the gate is exact unless its brackets are balanced kind by kind and yet not nested. -/
theorem gate_exact_iff {content : String} (clear : ClearText content) :
    GateExact content ↔ (EachBalanced bracketPartner (outside (.code false) content.toList) →
      Nested bracketPartner (outside (.code false) content.toList)) := by
  rw [GateExact,check_none_iff clear]
  constructor
  · exact fun exact => exact.mp
  · exact fun nested => ⟨nested, fun n => n.eachBalanced bracketPartner_closers bracketPartner_own⟩

instance (s : List Char) : Decidable (Nested bracketPartner s) := decidable_of_iff _ (nested_iff bracketPartner_closers).symm

/-- A text with brackets in a literal and in comments. -/
theorem commented_text_exact : GateExact "f[\"(\"]/*\x7b*/ //]" :=
  (gate_exact_iff (by unfold ClearText; decide)).mpr fun _ => by decide

/-- Kinds that cross; a literal of one backslash; a comment that a slash behind its star does not close; a slash at the
end of a line and one at the start of the next. -/
theorem gate_inexact : ¬ GateExact "([)]" ∧ ¬ GateExact "(\"\\\\\")" ∧ ¬ GateExact "/*/(*/" ∧ ¬ GateExact "/\n/(" := by
  unfold GateExact
  decide

end Zaion.Aci
