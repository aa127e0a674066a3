import Zaion.Lib.Cut
import Zaion.Lib.Find
import Zaion.Tools.Lines

/-! Applying an accepted patch to its file: where the snippet is looked for, and what the file holds after each way the
application can end. -/
namespace Zaion.Evolve

open Lib
open Tools (lines stripCr lines_closed)

structure Finding where
  file : String
  line : Nat
  snippet : String

structure Proposal where
  id : String
  finding : Finding
  patch : String

structure ApplyResult where
  proposalId : String
  file : String
  applied : Bool
  message : String

/-- A part of a text, with what stands around it. -/
structure Place where
  before : List Char
  matched : List Char
  after : List Char

def Place.whole (place : Place) : List Char := place.before ++ (place.matched ++ place.after)

/-- The text with the part replaced. -/
def Place.replaced (place : Place) (patch : String) : String := String.ofList (place.before ++ patch.toList ++ place.after)

/-- `&content[a..b]`; `none` where such a slice stops the program. -/
def slice (a b : Nat) (content : List Char) : Option Place :=
  if b < a then none
  else do
    let before ← firstBytes a content
    let rest := content.drop before.length
    let window ← firstBytes (b - a) rest
    some ⟨before, window, rest.drop window.length⟩

/-- `replace_in_window`. -/
def replaceInWindow (window : Place) (snippet : String) : Option Place :=
  match breakAt snippet.toList window.matched with
  | some (front, rest) => some ⟨window.before ++ front, snippet.toList, rest ++ window.after⟩
  | none => (breakAt (trim snippet).toList window.matched).map fun parts =>
      ⟨window.before ++ parts.1, (trim snippet).toList, parts.2 ++ window.after⟩

/-- The bytes of the first lines, each with one byte for its end. -/
def lineBytes (content : String) (n : Nat) : Nat := (((lines content).take n).map fun line => line.utf8ByteSize + 1).sum

/-- `replace_near`; `none` where the program stops. -/
def replaceNear (content snippet : String) (targetLine radius : Nat) : Option (Option Place) :=
  let lo := targetLine - radius
  let hi := min (targetLine + radius + 1) (lines content).length
  if (lines content).length < lo then none
  else (slice (lineBytes content lo) (min (lineBytes content hi) content.utf8ByteSize) content.toList).map fun window =>
    if (trim snippet).toList <:+: window.matched ∨ snippet.toList <:+: window.matched then replaceInWindow window snippet
    else none

def replaceFirst (content snippet : String) : Option Place :=
  ((breakAt snippet.toList content.toList).or (breakAt (trim snippet).toList content.toList)).map fun parts =>
    let rest := content.toList.drop parts.1.length
    let matched := if snippet.toList <+: rest then snippet.toList else (trim snippet).toList
    ⟨parts.1, matched, rest.drop matched.length⟩

/-- Where the patch goes: near the line of the finding, or else where the snippet first is. -/
def rewriting (content : String) (finding : Finding) : Option (Option Place) :=
  (replaceNear content finding.snippet (finding.line - 1) 10).map fun near =>
    near.or (replaceFirst content finding.snippet)

inductive Entry where
  | missing
  | unreadable (error : String) (held : List UInt8)
  | text (content : String)

def utf8 (text : String) : List UInt8 := text.toByteArray.toList

def Entry.held : Entry → Option (List UInt8)
  | missing => none
  | unreadable _ held => some held
  | text content => some (utf8 content)

/-- What one application meets: the file, another file for its backup, and how each call ends. -/
structure Site where
  path : String
  entry : Entry
  backup : Except String Unit
  backupName : String
  write : Except String Unit
  /-- What a restore that fails leaves in the file. -/
  restore : Option (List UInt8)
  /-- The metadata gate, if it is run. -/
  gate : Option (Except String Unit)
  quoted : String → String

def Site.restored (site : Site) (content : String) : Option (List UInt8) := some (site.restore.getD (utf8 content))

/-- `PatchApplier::apply_one` with what the file holds afterwards; `none` where the program stops. -/
def applyOne (site : Site) (p : Proposal) : Option (ApplyResult × Option (List UInt8)) :=
  let result (applied : Bool) (message : String) : ApplyResult := ⟨p.id, p.finding.file, applied, message⟩
  match site.entry with
  | .missing => some (result false ("file not found: " ++ site.path), none)
  | .unreadable error held => some (result false ("read error: " ++ error), some held)
  | .text content =>
    if trim p.finding.snippet = trim p.patch then
      some (result false "patch is identical to snippet — nothing to apply", some (utf8 content))
    else
      (rewriting content p.finding).map fun
        | none => (result false ("snippet not found in file (expected near line " ++ toString p.finding.line ++ "): " ++
            site.quoted (String.ofList (p.finding.snippet.toList.take 60))), some (utf8 content))
        | some place =>
          match site.backup with
          | .error e => (result false ("backup failed: " ++ e), some (utf8 content))
          | .ok () =>
            match site.write with
            | .error e => (result false ("write failed: " ++ e), site.restored content)
            | .ok () =>
              match site.gate with
              | some (.error e) => (result false ("metadata gate failed: " ++ trim e), site.restored content)
              | _ => (result true ("applied — backup at " ++ site.backupName), some (utf8 (place.replaced p.patch)))

def lineOf (front : List Char) : Nat := front.count '\n'

/-- A place more than ten lines before the line of the finding, or after it. -/
def Early (line : Nat) (front : List Char) : Prop := lineOf front + 10 < line - 1
def Late (line : Nat) (front : List Char) : Prop := line - 1 + 10 < lineOf front

def OccursBehind (needle text front : List Char) : Prop := front ++ needle <+: text

/-- The snippet, or what is left of it without white space around it, is found within ten lines. -/
def SomeNear (content : String) (finding : Finding) : Prop :=
  ∃ needle ∈ [finding.snippet.toList, (trim finding.snippet).toList], ∃ front,
    OccursBehind needle content.toList front ∧ ¬ Early finding.line front ∧ ¬ Late finding.line front

/-- What a search must come to. -/
def Rewritten (content : String) (finding : Finding) : Option (Option Place) → Prop
  | none => False
  | some none => ¬ finding.snippet.toList <:+: content.toList ∧ ¬ (trim finding.snippet).toList <:+: content.toList
  | some (some place) => place.whole = content.toList ∧
      place.matched ∈ [finding.snippet.toList, (trim finding.snippet).toList] ∧
      (SomeNear content finding → ¬ Early finding.line place.before ∧ ¬ Late finding.line place.before)

/-- The part of the file that is searched first: its ends are counted as if every line ended in one byte. -/
structure Window (content : String) (line : Nat) (window : Place) : Prop where
  whole : window.whole = content.toList
  start : (window.before.map Char.utf8Size).sum = lineBytes content (line - 1 - 10)
  finish : ((window.before ++ window.matched).map Char.utf8Size).sum =
    min (lineBytes content (min (line - 1 + 10 + 1) (lines content).length)) content.utf8ByteSize

/-- With an occurrence within ten lines, the search meets no other one before them. -/
def Undistracted (content : String) (finding : Finding) (window : Place) : Prop :=
  SomeNear content finding →
    if finding.snippet.toList <:+: window.matched then
      ∀ front, OccursBehind finding.snippet.toList window.matched front → ¬ Early finding.line (window.before ++ front)
    else if (trim finding.snippet).toList <:+: window.matched then
      ∀ front, OccursBehind (trim finding.snippet).toList window.matched front → ¬ Early finding.line (window.before ++ front)
    else if finding.snippet.toList <:+: content.toList then
      (∀ front, OccursBehind finding.snippet.toList content.toList front → ¬ Early finding.line front) ∧
        ∃ front, OccursBehind finding.snippet.toList content.toList front ∧ ¬ Late finding.line front
    else ∀ front, OccursBehind (trim finding.snippet).toList content.toList front → ¬ Early finding.line front

/-! Where an occurrence is -/

section

variable {needle text before rest front : List Char} {line : Nat}

theorem breakAt_occurs (found : breakAt needle text = some (before, rest)) : OccursBehind needle text before :=
  ⟨rest, by rw [List.append_assoc]; exact (breakAt_split found).symm⟩

theorem exists_occurs (occurs : needle <:+: text) : ∃ front, OccursBehind needle text front := by
  obtain ⟨front, rest, same⟩ := occurs
  exact ⟨front, rest, same⟩

theorem OccursBehind.isPart (occurs : OccursBehind needle text front) : needle <:+: text := by
  obtain ⟨rest, same⟩ := occurs
  exact ⟨front, rest, same⟩

theorem lineOf_mono (start : before <+: front) : lineOf before ≤ lineOf front := start.sublist.count_le '\n'

/-- The first occurrence is not early when none is. -/
theorem first_not_early_iff (found : breakAt needle text = some (before, rest)) (start : List Char) :
    ¬ Early line (start ++ before) ↔ ∀ front, OccursBehind needle text front → ¬ Early line (start ++ front) := by
  constructor
  · intro punctual front occurs early
    have least := lineOf_mono ((List.prefix_append_right_inj start).mpr (breakAt_least found occurs))
    unfold Early at punctual early
    omega
  · exact fun none_ => none_ before (breakAt_occurs found)

/-- It is not late when some one is not. -/
theorem first_not_late_iff (found : breakAt needle text = some (before, rest)) :
    ¬ Late line before ↔ ∃ front, OccursBehind needle text front ∧ ¬ Late line front := by
  constructor
  · exact fun timely => ⟨before, breakAt_occurs found, timely⟩
  · rintro ⟨front, occurs, timely⟩ late
    have least := lineOf_mono (breakAt_least found occurs)
    unfold Late at timely late
    omega

end

/-! Lines and their bytes -/

section

variable {content : String} {before rest : List Char} {n : Nat}

theorem stripCr_bytes_le (line : List Char) : (String.ofList (stripCr line)).utf8ByteSize ≤ (line.map Char.utf8Size).sum := by
  rw [← utf8ByteSize_ofList]
  refine utf8ByteSize_mono ?_
  rw [String.toList_ofList,String.toList_ofList]
  unfold stripCr
  split
  · exact List.dropLast_sublist line
  · exact List.Sublist.refl line

/-- A text begins with the lines of its beginning. -/
theorem lines_of_front (split : content.toList = before ++ rest) {front : List (List Char)} {last : List Char}
    (closes : before = closed '\n' front ++ last) (plain : ∀ line ∈ front, '\n' ∉ line) (plainLast : '\n' ∉ last) :
    ∃ more, (lines content).map String.toList = front.map stripCr ++ more := by
  obtain ⟨frontB, lastB, rfl, plainB, plainLastB⟩ := exists_closed '\n' rest
  cases frontB with
  | nil =>
    refine ⟨_, @lines_closed front (last ++ lastB) content ?_ plain ?_⟩
    · rw [split,closes,closed_nil,List.nil_append,List.append_assoc]
    · rw [List.mem_append,not_or]
      exact ⟨plainLast, plainLastB⟩
  | cons line frontB =>
    obtain ⟨here, later⟩ := List.forall_mem_cons.mp plainB
    have all : ∀ l ∈ front ++ (last ++ line) :: frontB, '\n' ∉ l := by
      refine List.forall_mem_append.mpr ⟨plain, List.forall_mem_cons.mpr ⟨?_, later⟩⟩
      rw [List.mem_append,not_or]
      exact ⟨plainLast, here⟩
    have text : content.toList = closed '\n' (front ++ (last ++ line) :: frontB) ++ lastB := by
      rw [split,closes,closed_append,closed_cons,closed_cons]
      simp only [List.append_assoc,List.cons_append]
    have read := lines_closed text all plainLastB
    rw [List.map_append,List.append_assoc] at read
    exact ⟨_, read⟩

theorem count_closed {lines : List (List Char)} (plain : ∀ line ∈ lines, '\n' ∉ line) :
    (closed '\n' lines).count '\n' = lines.length := by
  induction lines with
  | nil => rfl
  | cons line rest ih =>
    obtain ⟨here, later⟩ := List.forall_mem_cons.mp plain
    rw [closed_cons,List.count_append,List.count_eq_zero_of_not_mem here,List.count_cons_self,ih later,List.length_cons]
    omega

theorem stripped_le (lines : List (List Char)) :
    (lines.map fun line => (String.ofList (stripCr line)).utf8ByteSize + 1).sum ≤ ((closed '\n' lines).map Char.utf8Size).sum := by
  induction lines with
  | nil => exact Nat.le_refl 0
  | cons line rest ih =>
    have here := stripCr_bytes_le line
    have break_ : '\n'.utf8Size = 1 := by decide
    rw [List.map_cons,List.sum_cons,closed_cons,List.map_append,List.sum_append,List.map_cons,List.sum_cons,break_]
    omega

/-- As many lines as have ended take at least the bytes that are counted for them. -/
theorem lineBytes_le (split : content.toList = before ++ rest) (ended : n ≤ lineOf before) :
    n ≤ (lines content).length ∧ lineBytes content n ≤ (before.map Char.utf8Size).sum := by
  obtain ⟨front, last, closes, plain, plainLast⟩ := exists_closed '\n' before
  obtain ⟨more, read⟩ := lines_of_front split closes plain plainLast
  have count : lineOf before = front.length := by
    rw [lineOf,closes,List.count_append,count_closed plain,List.count_eq_zero_of_not_mem plainLast,Nat.add_zero]
  have length := congrArg List.length read
  rw [List.length_map,List.length_append,List.length_map] at length
  have taken : (lines content).take n = (front.take n).map fun line => String.ofList (stripCr line) := by
    have texts := congrArg (fun all => (all.take n).map String.ofList) read
    simp only [List.map_take,List.map_map,Function.comp_def,String.ofList_toList,List.map_id'] at texts
    rw [texts,List.map_append,List.take_append_of_le_length (by rw [List.length_map,List.length_map]; omega),List.map_map,
      List.map_take]
    rfl
  refine ⟨by omega, ?_⟩
  have here := stripped_le (front.take n)
  have all : ((closed '\n' (front.take n)).map Char.utf8Size).sum ≤ (before.map Char.utf8Size).sum := by
    have parts : before = closed '\n' (front.take n) ++ (closed '\n' (front.drop n) ++ last) := by
      rw [closes,← List.append_assoc,← closed_append,List.take_append_drop]
    rw [parts,List.map_append,List.sum_append]
    omega
  rw [lineBytes,taken,List.map_map]
  exact Nat.le_trans here all

theorem lineBytes_lt (inside : n < (lines content).length) : lineBytes content n < lineBytes content (n + 1) := by
  unfold lineBytes
  rw [List.take_succ_eq_append_getElem inside,List.map_append,List.sum_append]
  simp

end

section

variable {content : String} {finding : Finding} {window place : Place} {a b : Nat} {text : List Char}

theorem slice_iff : slice a b text = some place ↔ a ≤ b ∧ place.whole = text ∧ (place.before.map Char.utf8Size).sum = a ∧
    ((place.before ++ place.matched).map Char.utf8Size).sum = b := by
  unfold slice
  constructor
  · intro cut
    split at cut
    · cases cut
    · next ordered =>
      obtain ⟨before, first, cut⟩ := Option.bind_eq_some_iff.mp cut
      obtain ⟨matched, second, same⟩ := Option.bind_eq_some_iff.mp cut
      cases same
      obtain ⟨⟨rest, rfl⟩, size⟩ := firstBytes_iff.mp first
      rw [List.drop_left] at second
      obtain ⟨⟨after, rfl⟩, size'⟩ := firstBytes_iff.mp second
      refine ⟨by omega, ?_, size, ?_⟩
      · rw [Place.whole,List.drop_left,List.drop_left]
      · rw [List.map_append,List.sum_append,size,size']
        omega
  · rintro ⟨ordered, rfl, rfl, rfl⟩
    have first : firstBytes (place.before.map Char.utf8Size).sum place.whole = some place.before :=
      firstBytes_iff.mpr ⟨List.prefix_append _ _, rfl⟩
    have rest : place.whole.drop place.before.length = place.matched ++ place.after := List.drop_left
    have second : firstBytes (((place.before ++ place.matched).map Char.utf8Size).sum - (place.before.map Char.utf8Size).sum)
        (place.matched ++ place.after) = some place.matched := by
      refine firstBytes_iff.mpr ⟨List.prefix_append _ _, ?_⟩
      rw [List.map_append,List.sum_append]
      omega
    rw [if_neg (by omega),first]
    simp only [Option.bind_eq_bind,Option.bind_some,rest,second,List.drop_left]

theorem window_iff : slice (lineBytes content (finding.line - 1 - 10))
    (min (lineBytes content (min (finding.line - 1 + 10 + 1) (lines content).length)) content.utf8ByteSize) content.toList =
      some window ↔ Window content finding.line window := by
  rw [slice_iff]
  constructor
  · rintro ⟨_, whole, start, finish⟩
    exact ⟨whole, start, finish⟩
  · rintro ⟨whole, start, finish⟩
    refine ⟨?_, whole, start, finish⟩
    rw [← start,← finish,List.map_append,List.sum_append]
    omega

/-- What is found first in the window is not behind the ten lines. -/
theorem Window.not_late (fits : Window content finding.line window) {needle front rest : List Char} (found : breakAt needle window.matched = some (front, rest)) :
    ¬ Late finding.line (window.before ++ front) := by
  have split := breakAt_split found
  have text : content.toList = (window.before ++ front) ++ (needle ++ rest ++ window.after) := by
    rw [← fits.whole,Place.whole,split]
    simp only [List.append_assoc]
  intro late
  unfold Late at late
  cases needle with
  | nil =>
    -- Nothing is found at the start of the window.
    obtain rfl := List.prefix_nil.mp (breakAt_least found (List.prefix_append [] window.matched))
    rw [List.append_nil] at text late
    obtain ⟨inside, least⟩ := lineBytes_le text (n := finding.line - 1 - 10 + 1) (by omega)
    have more := lineBytes_lt inside
    have start := fits.start
    omega
  | cons c needle =>
    obtain ⟨_, least⟩ := @lineBytes_le content _ _ (min (finding.line - 1 + 10 + 1) (lines content).length) text (by omega)
    have finish := fits.finish
    have positive := c.utf8Size_pos
    rw [split] at finish
    simp only [List.map_append,List.sum_append,List.map_cons,List.sum_cons] at finish least
    omega

theorem in_window_iff (fits : Window content finding.line window) {needle front rest : List Char}
    (form : needle ∈ [finding.snippet.toList, (trim finding.snippet).toList])
    (found : breakAt needle window.matched = some (front, rest)) :
    Rewritten content finding (some (some ⟨window.before ++ front, needle, rest ++ window.after⟩)) ↔
      (SomeNear content finding →
        ∀ other, OccursBehind needle window.matched other → ¬ Early finding.line (window.before ++ other)) := by
  have whole : (⟨window.before ++ front, needle, rest ++ window.after⟩ : Place).whole = content.toList := by
    rw [← fits.whole,Place.whole,Place.whole,breakAt_split found]
    simp only [List.append_assoc]
  rw [← first_not_early_iff found window.before]
  constructor
  · exact fun right near => (right.2.2 near).1
  · exact fun punctual => ⟨whole, form, fun near => ⟨punctual near, fits.not_late found⟩⟩

theorem in_file_iff {needle front rest : List Char} (form : needle ∈ [finding.snippet.toList, (trim finding.snippet).toList])
    (found : breakAt needle content.toList = some (front, rest)) :
    Rewritten content finding (some (some ⟨front, needle, rest⟩)) ↔ (SomeNear content finding →
      (∀ other, OccursBehind needle content.toList other → ¬ Early finding.line other) ∧
        ∃ other, OccursBehind needle content.toList other ∧ ¬ Late finding.line other) := by
  rw [← first_not_late_iff found]
  have punctual := @first_not_early_iff _ _ _ _ finding.line found []
  simp only [List.nil_append] at punctual
  rw [← punctual]
  exact ⟨fun right => right.2.2, fun punctual => ⟨(breakAt_split found).symm, form, punctual⟩⟩

theorem replaceFirst_exact {snippet : String} {front rest : List Char}
    (found : breakAt snippet.toList content.toList = some (front, rest)) :
    replaceFirst content snippet = some ⟨front, snippet.toList, rest⟩ := by
  have behind : content.toList.drop front.length = snippet.toList ++ rest := by rw [breakAt_split found,List.drop_left]
  simp only [replaceFirst,found,Option.some_or,Option.map_some,behind]
  rw [if_pos (List.prefix_append _ _),List.drop_left]

theorem replaceFirst_trimmed {snippet : String} {front rest : List Char} (absent : ¬ snippet.toList <:+: content.toList)
    (found : breakAt (trim snippet).toList content.toList = some (front, rest)) :
    replaceFirst content snippet = some ⟨front, (trim snippet).toList, rest⟩ := by
  have behind : content.toList.drop front.length = (trim snippet).toList ++ rest := by rw [breakAt_split found,List.drop_left]
  have other : ¬ snippet.toList <+: (trim snippet).toList ++ rest := by
    intro starts
    rw [← behind] at starts
    exact absent (starts.isInfix.trans (List.drop_suffix _ _).isInfix)
  simp only [replaceFirst,breakAt_none_iff.mpr absent,found,Option.none_or,Option.map_some,behind]
  rw [if_neg other,List.drop_left]

theorem not_someNear (exact_ : ¬ finding.snippet.toList <:+: content.toList)
    (trimmed : ¬ (trim finding.snippet).toList <:+: content.toList) : ¬ SomeNear content finding := by
  rintro ⟨needle, form, front, occurs, _⟩
  rcases List.mem_pair.mp form with whole | cut
  · rw [whole] at occurs
    exact exact_ occurs.isPart
  · rw [cut] at occurs
    exact trimmed occurs.isPart

/-- Where the window fits, the search is right exactly when nothing distracts it. -/
theorem rewritten_iff_undistracted (inside : finding.line - 1 - 10 ≤ (lines content).length)
    (fits : Window content finding.line window) :
    Rewritten content finding (rewriting content finding) ↔ Undistracted content finding window := by
  have near : replaceNear content finding.snippet (finding.line - 1) 10 =
      some (if (trim finding.snippet).toList <:+: window.matched ∨ finding.snippet.toList <:+: window.matched then
        replaceInWindow window finding.snippet else none) := by
    simp only [replaceNear]
    rw [if_neg (by omega),window_iff.mpr fits]
    rfl
  rw [rewriting,near,Option.map_some,Undistracted]
  by_cases exact_ : finding.snippet.toList <:+: window.matched
  · obtain ⟨⟨front, rest⟩, found⟩ := Option.isSome_iff_exists.mp (breakAt_isSome exact_)
    rw [if_pos (.inr exact_),if_pos exact_,replaceInWindow,found]
    exact in_window_iff fits List.mem_cons_self found
  rw [if_neg exact_]
  by_cases trimmed : (trim finding.snippet).toList <:+: window.matched
  · obtain ⟨⟨front, rest⟩, found⟩ := Option.isSome_iff_exists.mp (breakAt_isSome trimmed)
    rw [if_pos (.inl trimmed),if_pos trimmed,replaceInWindow,breakAt_none_iff.mpr exact_,found]
    exact in_window_iff fits (List.mem_cons_of_mem _ List.mem_cons_self) found
  rw [if_neg trimmed,if_neg (not_or.mpr ⟨trimmed, exact_⟩),Option.none_or]
  by_cases inFile : finding.snippet.toList <:+: content.toList
  · obtain ⟨⟨front, rest⟩, found⟩ := Option.isSome_iff_exists.mp (breakAt_isSome inFile)
    rw [if_pos inFile,replaceFirst_exact found]
    exact in_file_iff List.mem_cons_self found
  rw [if_neg inFile]
  by_cases trimmedInFile : (trim finding.snippet).toList <:+: content.toList
  · obtain ⟨⟨front, rest⟩, found⟩ := Option.isSome_iff_exists.mp (breakAt_isSome trimmedInFile)
    rw [replaceFirst_trimmed inFile found,in_file_iff (List.mem_cons_of_mem _ List.mem_cons_self) found]
    constructor
    · exact fun right near => (right near).1
    · intro punctual near
      obtain ⟨needle, form, other, occurs, _, timely⟩ := near
      rcases List.mem_pair.mp form with whole | cut
      · rw [whole] at occurs
        exact absurd occurs.isPart inFile
      · rw [cut] at form occurs
        exact ⟨punctual ⟨_, form, other, occurs, ‹_›, timely⟩, other, occurs, timely⟩
  · have nowhere : replaceFirst content finding.snippet = none := by
      rw [replaceFirst,breakAt_none_iff.mpr inFile,breakAt_none_iff.mpr trimmedInFile]
      rfl
    rw [nowhere]
    exact ⟨fun _ near => absurd near (not_someNear inFile trimmedInFile), fun _ => ⟨inFile, trimmedInFile⟩⟩

end

/-! What an application comes to -/

/-- The file is written to, or was to be, and the application fails. -/
def Site.Fails (site : Site) : Prop :=
  site.backup = .ok () ∧ ((∃ e, site.write = .error e) ∨ site.write = .ok () ∧ ∃ e, site.gate = some (.error e))

/-- A patch that is not the snippet again goes where it should, and what is not applied leaves the file as it was. -/
structure Correct (site : Site) (p : Proposal) : Prop where
  rewritten : ∀ content, site.entry = .text content → trim p.finding.snippet ≠ trim p.patch →
    Rewritten content p.finding (rewriting content p.finding)
  unchanged : ∀ result after, applyOne site p = some (result, after) → result.applied = false → after = site.entry.held

/-- The window lies in the file and between characters, and nothing distracts the search from the ten lines. -/
def Searchable (content : String) (finding : Finding) : Prop :=
  finding.line - 1 - 10 ≤ (lines content).length ∧ ∃ window, Window content finding.line window ∧ Undistracted content finding window

/-- Where there is something to replace, a failure is followed by a restore that succeeds. -/
def Restores (site : Site) (content : String) (finding : Finding) : Prop :=
  (trim finding.snippet).toList <:+: content.toList → site.Fails → site.restored content = some (utf8 content)

section

variable {content : String} {finding : Finding} {site : Site} {p : Proposal}

/-- The rewriting is what it should be exactly on such files. -/
theorem rewritten_iff_searchable : Rewritten content finding (rewriting content finding) ↔ Searchable content finding := by
  constructor
  · intro right
    by_cases inside : finding.line - 1 - 10 ≤ (lines content).length
    · cases fits : slice (lineBytes content (finding.line - 1 - 10))
        (min (lineBytes content (min (finding.line - 1 + 10 + 1) (lines content).length)) content.utf8ByteSize) content.toList with
      | none =>
        rw [rewriting,replaceNear] at right
        simp only [fits,Option.map_none,ite_self] at right
        exact absurd right id
      | some window => exact ⟨inside, window, window_iff.mp fits, (rewritten_iff_undistracted inside (window_iff.mp fits)).mp right⟩
    · rw [rewriting,replaceNear] at right
      simp only [if_pos (Nat.not_le.mp inside),Option.map_none] at right
      exact absurd right id
  · rintro ⟨inside, window, fits, undistracted⟩
    exact (rewritten_iff_undistracted inside fits).mpr undistracted

theorem trim_part (s : String) : (trim s).toList <:+: s.toList := by
  rw [trim_eq,String.toList_ofList]
  exact (List.rdropWhile_prefix _ _).isInfix.trans (List.dropWhile_suffix _).isInfix

theorem rewriting_found (right : Rewritten content finding (rewriting content finding)) :
    ∃ found, rewriting content finding = some found ∧
      ((∃ place, found = some place) ↔ (trim finding.snippet).toList <:+: content.toList) := by
  cases same : rewriting content finding with
  | none =>
    rw [same] at right
    exact absurd right id
  | some found =>
    rw [same] at right
    refine ⟨found, rfl, ?_⟩
    cases found with
    | none => exact ⟨nofun, fun occurs => absurd occurs right.2⟩
    | some place =>
      refine ⟨fun _ => ?_, fun _ => ⟨place, rfl⟩⟩
      obtain ⟨whole, form, _⟩ := right
      have occurs : place.matched <:+: content.toList := ⟨place.before, place.after, by rw [← whole,Place.whole,List.append_assoc]⟩
      rcases List.mem_pair.mp form with exact_ | trimmed
      · rw [exact_] at occurs
        exact (trim_part finding.snippet).trans occurs
      · rwa [trimmed] at occurs

/-- Nothing but a failed restore loses what the file held. -/
theorem unchanged_iff (holds : site.entry = .text content) (patches : trim p.finding.snippet ≠ trim p.patch)
    (right : Rewritten content p.finding (rewriting content p.finding)) :
    (∀ result after, applyOne site p = some (result, after) → result.applied = false → after = site.entry.held) ↔
      Restores site content p.finding := by
  obtain ⟨found, rewritten, occurs⟩ := rewriting_found right
  rw [Restores,← occurs]
  simp only [applyOne,holds,if_neg patches,rewritten,Option.map_some,Option.some.injEq,Site.Fails,Entry.held]
  cases found with
  | none => simp
  | some place =>
    cases backup : site.backup with
    | error e => simp
    | ok =>
      cases write : site.write with
      | error e => simp
      | ok =>
        cases gate : site.gate with
        | none => simp
        | some outcome => cases outcome <;> simp

/-- An application is correct exactly when its window fits the file, nothing distracts the search, and a failure is
followed by a restore that succeeds. -/
theorem correct_iff (site : Site) (p : Proposal) : Correct site p ↔
    ∀ content, site.entry = .text content → trim p.finding.snippet ≠ trim p.patch →
      Searchable content p.finding ∧ Restores site content p.finding := by
  constructor
  · intro correct content holds patches
    have right := correct.rewritten content holds patches
    exact ⟨rewritten_iff_searchable.mp right, (unchanged_iff holds patches right).mp correct.unchanged⟩
  · intro fits
    refine ⟨fun content holds patches => rewritten_iff_searchable.mpr (fits content holds patches).1, ?_⟩
    intro result after applied failed
    cases holds : site.entry with
    | missing =>
      simp only [applyOne,holds,Option.some.injEq,Prod.mk.injEq] at applied
      exact applied.2.symm
    | unreadable error held =>
      simp only [applyOne,holds,Option.some.injEq,Prod.mk.injEq] at applied
      exact applied.2.symm
    | text content =>
      rw [← holds]
      by_cases patches : trim p.finding.snippet = trim p.patch
      · simp only [applyOne,holds,if_pos patches,Option.some.injEq,Prod.mk.injEq] at applied
        rw [holds]
        exact applied.2.symm
      · obtain ⟨searchable, restores⟩ := fits content holds patches
        exact (unchanged_iff holds patches (rewritten_iff_searchable.mpr searchable)).mpr restores result after applied failed

end

def plainSite (content : String) : Site where
  path := "src/lib.rs"
  entry := .text content
  backup := .ok ()
  backupName := "lib.rs.bak"
  write := .ok ()
  restore := none
  gate := none
  quoted := id

/-- A finding of a file that was longer when it was scanned. -/
theorem stale_line_stops : ¬ Correct (plainSite "a\n") ⟨"p", ⟨"src/lib.rs", 30, "a"⟩, "b"⟩ := by
  intro correct
  have right := correct.rewritten "a\n" rfl (by decide)
  have stops : rewriting "a\n" ⟨"src/lib.rs", 30, "a"⟩ = none := by decide
  rw [stops] at right
  exact right

end Zaion.Evolve
