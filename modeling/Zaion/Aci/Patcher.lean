import Zaion.Aci.Gate
import Zaion.Lib.Find
import Zaion.Lib.Joined
import Zaion.Lib.Match
import Zaion.Tools.Lines

/-! Edits of a file by text and by line: what an edit that passes the gate changes. The syntax check is a parameter. -/
namespace Zaion.Aci

open Lib
open Tools (lines joinLines stripCr lines_closed joinLines_toList)

/-- `SyntaxLanguage::parse_name`. No name has a letter that lower-casing makes of another alphabet's. -/
def SyntaxLanguage.parseName (s : String) : SyntaxLanguage :=
  match toAsciiLowercase s with
  | "rust" => .rust
  | "toml" => .toml
  | "json" => .json
  | "python" | "py" => .python
  | "shell" | "sh" | "bash" => .shell
  | "typescript" | "ts" => .typeScript
  | "javascript" | "js" => .javaScript
  | _ => .unknown

structure AstPatchResult where
  offset : Nat
  newContent : String
  changed : Bool
  deriving DecidableEq

inductive PatchError where
  | fileNotFound (path : String)
  | patchFailed (message : String)
  | syntax_ (error : AciError)
  | io
  deriving DecidableEq

/-- The file at a path, and whether a new text can be moved onto it. -/
structure PatchSite where
  path : String
  content : Option String
  writes : Bool

/-- The file after an edit. -/
def PatchSite.after (site : PatchSite) : Except PatchError AstPatchResult → Option String
  | .ok result => if result.changed then some result.newContent else site.content
  | .error _ => site.content

section

variable (syntaxCheck : String → SyntaxLanguage → SyntaxCheckResult)

/-- The fuse: a text that does not parse is sent back. -/
def fuse (content : String) (language : SyntaxLanguage) : Except PatchError Unit :=
  if (syntaxCheck content language).isValid then .ok ()
  else
    match (syntaxCheck content language).toAciError language with
    | some error => .error (.syntax_ error)
    | none => .ok ()

/-- The check of a new text and its write, where it is new. -/
def commit (site : PatchSite) (original newContent : String) (offset : Nat) (language : String) :
    Except PatchError AstPatchResult := do
  fuse syntaxCheck newContent (.parseName language)
  let changed := decide (newContent ≠ original)
  ensure (changed = true → site.writes = true) PatchError.io
  .ok ⟨offset, newContent, changed⟩

/-- `AstPatcher::replace_node`. -/
def replaceNode (site : PatchSite) (oldText newText language : String) : Except PatchError AstPatchResult := do
  let original ← required site.content (PatchError.fileNotFound site.path)
  let occurrences := matchCount oldText.toList original.toList
  ensure (occurrences ≠ 0) (PatchError.patchFailed ("old_text not found in " ++ site.path))
  ensure (¬ 1 < occurrences) (PatchError.patchFailed ("old_text is ambiguous (" ++ toString occurrences ++
    " occurrences) in " ++ site.path ++ " — please provide more context"))
  let offset := ((breakAt oldText.toList original.toList).map fun parts => (String.ofList parts.1).utf8ByteSize).getD 0
  commit syntaxCheck site original (String.ofList (replaceFirst oldText.toList newText.toList original.toList)) offset language

/-- `AstPatcher::replace_in_memory`. -/
def replaceInMemory (original oldText newText language : String) : Except PatchError String := do
  let occurrences := matchCount oldText.toList original.toList
  ensure (occurrences ≠ 0) (PatchError.patchFailed "old_text not found")
  ensure (¬ 1 < occurrences) (PatchError.patchFailed ("old_text is ambiguous (" ++ toString occurrences ++ " occurrences)"))
  let newContent := String.ofList (replaceFirst oldText.toList newText.toList original.toList)
  fuse syntaxCheck newContent (.parseName language)
  .ok newContent

def deleteTextBlock (site : PatchSite) (targetText language : String) : Except PatchError AstPatchResult :=
  replaceNode syntaxCheck site targetText "" language

/-- What the lines of a text are with others put in after some of them. -/
def insertedText (original : String) (lineNumber : Nat) (contentToInsert : String) : String :=
  let all := lines original
  let insertAt := min lineNumber all.length
  joinLines (all.take insertAt ++ lines contentToInsert ++ all.drop insertAt) ++
    (if original.toList.getLast? = some '\n' then "\n" else "")

/-- `AstPatcher::insert_after_line`. -/
def insertAfterLine (site : PatchSite) (lineNumber : Nat) (contentToInsert language : String) :
    Except PatchError AstPatchResult := do
  let original ← required site.content (PatchError.fileNotFound site.path)
  commit syntaxCheck site original (insertedText original lineNumber contentToInsert)
    (min lineNumber (lines original).length) language

end

/-- A line of the text ends with a carriage return and a line feed. -/
def HasCrLf (text : String) : Prop := ['\r', '\n'] <:+: text.toList

/-- The original, with the inserted lines and one line break at most added after the given line. -/
def KeepsLines (original : String) (lineNumber : Nat) (contentToInsert newContent : String) : Prop :=
  let parts := splitAfter '\n' lineNumber original.toList
  let inserted := joinLines (lines contentToInsert)
  ∃ added, (added = inserted ∨ added = inserted ++ "\n" ∨ added = "\n" ++ inserted) ∧
    newContent.toList = parts.1 ++ added.toList ++ parts.2

/-- The old text starts at one place, and that occurrence alone is changed. -/
def ReplacesOne (original oldText newText newContent : String) : Prop :=
  ∃ before after, original.toList = before ++ oldText.toList ++ after ∧
    newContent.toList = before ++ newText.toList ++ after ∧
    ∀ i, OccursAt oldText.toList original.toList i ↔ i = before.length

section

variable {front : List (List Char)} {last : List Char} {original contentToInsert : String}

theorem endsWithBreak_iff (plainLast : '\n' ∉ last) :
    (closed '\n' front ++ last).getLast? = some '\n' ↔ last = [] ∧ front ≠ [] := by
  cases last with
  | nil =>
    rcases List.eq_nil_or_concat front with rfl | ⟨init, line, rfl⟩
    · simp
    · simp
  | cons c rest =>
    rw [List.getLast?_append_of_ne_nil _ (List.cons_ne_nil c rest)]
    constructor
    · intro ends
      exact absurd (List.mem_of_getLast? ends) plainLast
    · rintro ⟨empty, -⟩
      cases empty

/-- Lines end with both exactly where one is closed with a carriage return before its end. -/
theorem hasCrLf_iff (text : original.toList = closed '\n' front ++ last) (plain : ∀ line ∈ front, '\n' ∉ line)
    (plainLast : '\n' ∉ last) : HasCrLf original ↔ ∃ line ∈ front, line.getLast? = some '\r' := by
  constructor
  · rintro ⟨before, after, split⟩
    obtain ⟨linesA, lastA, rfl, plainA, plainLastA⟩ := exists_closed '\n' before
    obtain ⟨linesB, lastB, rfl, plainB, plainLastB⟩ := exists_closed '\n' after
    have plainAll : ∀ line ∈ linesA ++ [lastA ++ ['\r']] ++ linesB, '\n' ∉ line := by
      intro line member
      simp only [List.mem_append,List.mem_singleton] at member
      rcases member with (inA | rfl) | inB
      · exact plainA line inA
      · simpa using plainLastA
      · exact plainB line inB
    have regrouped : closed '\n' (linesA ++ [lastA ++ ['\r']] ++ linesB) ++ lastB = closed '\n' front ++ last := by
      rw [← text,← split]
      simp
    have pieces := congrArg (List.splitOn '\n') regrouped
    rw [splitOn_closed plainAll plainLastB,splitOn_closed plain plainLast] at pieces
    obtain ⟨same, -⟩ := List.append_inj' pieces rfl
    refine ⟨lastA ++ ['\r'], ?_, by simp⟩
    rw [← same]
    simp
  · rintro ⟨line, member, ends⟩
    obtain ⟨before, after, rfl⟩ := List.append_of_mem member
    obtain ⟨init, rfl⟩ := List.getLast?_eq_some_iff.mp ends
    refine ⟨closed '\n' before ++ init, closed '\n' after ++ last, ?_⟩
    rw [text]
    simp

theorem count_joined (all : List (List Char)) :
    (['\n'].intercalate all).count '\r' = (all.map (List.count '\r')).sum := by
  induction all with
  | nil => rfl
  | cons line rest ih =>
    cases rest with
    | nil => simp
    | cons second rest =>
      rw [List.intercalate_cons_cons,List.count_append,List.count_append,ih,List.map_cons,List.sum_cons]
      simp

theorem count_closed (front : List (List Char)) : (closed '\n' front).count '\r' = (front.map (List.count '\r')).sum := by
  induction front with
  | nil => rfl
  | cons line rest ih => simp [ih]

/-- What stripping takes from the lines. -/
theorem count_stripped (front : List (List Char)) : (front.map (List.count '\r')).sum =
    ((front.map stripCr).map (List.count '\r')).sum + front.countP fun line => decide (line.getLast? = some '\r') := by
  induction front with
  | nil => rfl
  | cons line rest ih =>
    simp only [List.map_cons,List.sum_cons,List.countP_cons,ih,stripCr]
    by_cases ends : line.getLast? = some '\r'
    · obtain ⟨init, rfl⟩ := List.getLast?_eq_some_iff.mp ends
      simp
      omega
    · simp [ends]
      omega

theorem insertedText_toList (original : String) (n : Nat) (contentToInsert : String) :
    (insertedText original n contentToInsert).toList =
      ['\n'].intercalate (((lines original).map String.toList).take (min n (lines original).length) ++
        (lines contentToInsert).map String.toList ++ ((lines original).map String.toList).drop (min n (lines original).length)) ++
      if original.toList.getLast? = some '\n' then ['\n'] else [] := by
  rw [insertedText,String.toList_append,joinLines_toList]
  simp only [List.map_append,List.map_take,List.map_drop]
  split <;> simp

/-- The new text has as many carriage returns as the lines of both. -/
theorem count_insertedText (original : String) (n : Nat) (contentToInsert : String) :
    (insertedText original n contentToInsert).toList.count '\r' =
      (((lines original).map String.toList).map (List.count '\r')).sum +
        (joinLines (lines contentToInsert)).toList.count '\r' := by
  rw [insertedText_toList,List.count_append,count_joined,joinLines_toList,count_joined,List.map_append,List.map_append,
    List.sum_append,List.sum_append]
  have parts := congrArg (fun all => (all.map (List.count '\r')).sum)
    (List.take_append_drop (min n (lines original).length) ((lines original).map String.toList))
  simp only [List.map_append,List.sum_append] at parts
  have tail : (if original.toList.getLast? = some '\n' then ['\n'] else []).count '\r' = 0 := by split <;> rfl
  omega

theorem not_hasCrLf_of_keeps {n : Nat}
    (keeps : KeepsLines original n contentToInsert (insertedText original n contentToInsert)) : ¬ HasCrLf original := by
  obtain ⟨front, last, text, plain, plainLast⟩ := exists_closed '\n' original.toList
  obtain ⟨added, shape, new⟩ := keeps
  have whole : (splitAfter '\n' n original.toList).1 ++ (splitAfter '\n' n original.toList).2 = original.toList :=
    splitAfter_append n original.toList
  have counts := congrArg (List.count '\r') new
  have counts' := congrArg (List.count '\r') whole
  have same : added.toList.count '\r' = (joinLines (lines contentToInsert)).toList.count '\r' := by
    rcases shape with rfl | rfl | rfl <;> simp
  have stripped := count_stripped front
  rw [count_insertedText,lines_closed text plain plainLast,List.map_append,List.sum_append] at counts
  have inLast : ((if last = [] then [] else [last]).map (List.count '\r')).sum = last.count '\r' := by
    split
    · next empty => simp [empty]
    · simp
  have inText := congrArg (List.count '\r') text
  simp only [List.count_append,count_closed] at counts counts' inText
  have none_ : front.countP (fun line => decide (line.getLast? = some '\r')) = 0 := by omega
  rw [hasCrLf_iff text plain plainLast]
  rintro ⟨line, member, ends⟩
  exact List.countP_eq_zero.mp none_ line member (decide_eq_true ends)

theorem stripCr_front (without : ¬ ∃ line ∈ front, line.getLast? = some '\r') : front.map stripCr = front := by
  refine (List.map_congr_left fun line member => ?_).trans (List.map_id front)
  exact if_neg fun ends => without ⟨line, member, ends⟩

/-- What the inserted lines are in a text where a line follows them. -/
theorem closed_inserted (inserted : List String) :
    ∃ added : String, (added = joinLines inserted ∨ added = joinLines inserted ++ "\n") ∧
      added.toList = closed '\n' (inserted.map String.toList) := by
  by_cases none_ : inserted = []
  · subst none_
    exact ⟨joinLines [], .inl rfl, rfl⟩
  · refine ⟨joinLines inserted ++ "\n", .inr rfl, ?_⟩
    rw [String.toList_append,joinLines_toList]
    exact intercalate_concat_sep (by simpa using none_)

/-- A text whose last line is open. -/
theorem keeps_open (n : Nat) (text : original.toList = closed '\n' front ++ last) (plain : ∀ line ∈ front, '\n' ∉ line)
    (plainLast : '\n' ∉ last) (without : ¬ ∃ line ∈ front, line.getLast? = some '\r') (some_ : last ≠ []) :
    KeepsLines original n contentToInsert (insertedText original n contentToInsert) := by
  have all := lines_closed text plain plainLast
  rw [stripCr_front without,if_neg some_] at all
  have length : (lines original).length = front.length + 1 := by
    rw [← List.length_map String.toList,all,List.length_append,List.length_singleton]
  have unclosed : ¬ original.toList.getLast? = some '\n' := by
    rw [text,endsWithBreak_iff plainLast]
    exact fun both => some_ both.1
  have split := splitAfter_closed plain plainLast n
  rw [KeepsLines,insertedText_toList,if_neg unclosed,all,length,List.append_nil,text,split]
  by_cases inside : n ≤ front.length
  · rw [if_pos inside,Nat.min_eq_left (by omega),List.take_append_of_le_length inside,List.drop_append_of_le_length inside]
    obtain ⟨added, shape, same⟩ := closed_inserted (lines contentToInsert)
    refine ⟨added, shape.imp_right .inl, ?_⟩
    rw [← List.append_assoc,intercalate_closed,closed_append,closed_append,← same]
    simp
  · rw [if_neg inside,Nat.min_eq_right (by omega)]
    have past : (front ++ [last]).length ≤ front.length + 1 := by simp
    rw [List.take_of_length_le past,List.drop_eq_nil_of_le past,List.append_nil]
    by_cases none_ : lines contentToInsert = []
    · refine ⟨joinLines (lines contentToInsert), .inl rfl, ?_⟩
      simp only [none_,List.map_nil,List.append_nil,intercalate_closed]
      rw [joinLines_toList]
      simp
    · refine ⟨"\n" ++ joinLines (lines contentToInsert), .inr (.inr rfl), ?_⟩
      rw [intercalate_append (by simp) (by simpa using none_),intercalate_closed,String.toList_append,joinLines_toList]
      simp

/-- A text whose lines are all closed. -/
theorem keeps_closed (n : Nat) (text : original.toList = closed '\n' front) (plain : ∀ line ∈ front, '\n' ∉ line)
    (without : ¬ ∃ line ∈ front, line.getLast? = some '\r') :
    KeepsLines original n contentToInsert (insertedText original n contentToInsert) := by
  have text' : original.toList = closed '\n' front ++ [] := text.trans (List.append_nil _).symm
  have all := lines_closed text' plain nofun
  rw [stripCr_front without,if_pos rfl,List.append_nil] at all
  have length : (lines original).length = front.length := by rw [← List.length_map String.toList,all]
  have split : splitAfter '\n' n (closed '\n' front) = (closed '\n' (front.take n), closed '\n' (front.drop n)) := by
    rw [← List.append_nil (closed '\n' front),splitAfter_closed plain List.not_mem_nil n]
    split
    · rw [List.append_nil]
    · next past => rw [List.take_of_length_le (by omega),List.drop_eq_nil_of_le (by omega),List.append_nil,closed_nil]
  rw [KeepsLines,insertedText_toList,all,length,text,split]
  by_cases none_ : front = []
  · subst none_
    refine ⟨joinLines (lines contentToInsert), .inl rfl, ?_⟩
    simp [joinLines_toList]
  · have ends : (closed '\n' front).getLast? = some '\n' := by
      rw [← List.append_nil (closed '\n' front)]
      exact (endsWithBreak_iff List.not_mem_nil).mpr ⟨rfl, none_⟩
    obtain ⟨added, shape, same⟩ := closed_inserted (lines contentToInsert)
    refine ⟨added, shape.imp_right .inl, ?_⟩
    rw [if_pos ends,intercalate_concat_sep,closed_append,closed_append,← same]
    · rcases Nat.le_total n front.length with inside | past
      · rw [Nat.min_eq_left inside]
      · rw [Nat.min_eq_right past,List.take_of_length_le le_rfl,List.drop_eq_nil_of_le le_rfl,
          List.take_of_length_le past,List.drop_eq_nil_of_le past]
    · have positive := List.length_pos_of_ne_nil none_
      simp [none_]
      intro zero _
      omega

theorem keeps_of_not_hasCrLf (n : Nat) (without : ¬ HasCrLf original) :
    KeepsLines original n contentToInsert (insertedText original n contentToInsert) := by
  obtain ⟨front, last, text, plain, plainLast⟩ := exists_closed '\n' original.toList
  rw [hasCrLf_iff text plain plainLast] at without
  by_cases some_ : last = []
  · subst some_
    exact keeps_closed n (text.trans (List.append_nil _)) plain without
  · exact keeps_open n text plain plainLast without some_

end

section

variable {syntaxCheck : String → SyntaxLanguage → SyntaxCheckResult} {site : PatchSite}
  {original oldText newText language content : String} {result : AstPatchResult}

theorem commit_ok_iff {newContent : String} {offset : Nat} :
    commit syntaxCheck site original newContent offset language = .ok result ↔
      fuse syntaxCheck newContent (.parseName language) = .ok () ∧ (newContent ≠ original → site.writes = true) ∧
        ⟨offset, newContent, decide (newContent ≠ original)⟩ = result := by
  simp only [commit,check_bind_ok_iff,ensure_ok_iff,decide_eq_true_eq,Except.ok.injEq]

/-- After an edit the file holds the new content. -/
theorem after_commit {newContent : String} {offset : Nat} (found : site.content = some original)
    (done : commit syntaxCheck site original newContent offset language = .ok result) :
    result.newContent = newContent ∧ site.after (.ok result) = some newContent := by
  obtain ⟨-, -, rfl⟩ := commit_ok_iff.mp done
  refine ⟨rfl, ?_⟩
  by_cases same : newContent = original
  · simp [PatchSite.after,same,found]
  · simp [PatchSite.after,same]

theorem insertAfterLine_ok {n : Nat} {contentToInsert : String} (found : site.content = some original)
    (done : insertAfterLine syntaxCheck site n contentToInsert language = .ok result) :
    result.newContent = insertedText original n contentToInsert ∧
      site.after (.ok result) = some (insertedText original n contentToInsert) := by
  rw [insertAfterLine,found,required_some,ok_bind] at done
  exact after_commit found done

theorem once_iff {occurrences : Nat} : occurrences ≠ 0 ∧ ¬ 1 < occurrences ↔ occurrences = 1 := by omega

/-- An edit by text passes with one match, and the new text past the fuse. -/
theorem replaceInMemory_ok_iff : replaceInMemory syntaxCheck original oldText newText language = .ok content ↔
    matchCount oldText.toList original.toList = 1 ∧ fuse syntaxCheck content (.parseName language) = .ok () ∧
      String.ofList (replaceFirst oldText.toList newText.toList original.toList) = content := by
  simp only [replaceInMemory,check_bind_ok_iff,ensure_ok_iff,Except.ok.injEq]
  rw [← and_assoc,once_iff]
  constructor
  · rintro ⟨one, passed, rfl⟩
    exact ⟨one, passed, rfl⟩
  · rintro ⟨one, passed, rfl⟩
    exact ⟨one, passed, rfl⟩

theorem replaceNode_ok_iff (found : site.content = some original) :
    replaceNode syntaxCheck site oldText newText language = .ok result ↔
      matchCount oldText.toList original.toList = 1 ∧
        ∃ offset, offset =
            ((breakAt oldText.toList original.toList).map fun parts => (String.ofList parts.1).utf8ByteSize).getD 0 ∧
          commit syntaxCheck site original (String.ofList (replaceFirst oldText.toList newText.toList original.toList)) offset
            language = .ok result := by
  simp only [replaceNode,found,required_some,ok_bind,check_bind_ok_iff,ensure_ok_iff,exists_eq_left]
  rw [← and_assoc,once_iff]

/-- On a file that can be written the edit and its twin pass on the same inputs, with the same content. -/
theorem replaceNode_twin (found : site.content = some original) (writes : site.writes = true) :
    (∃ result, replaceNode syntaxCheck site oldText newText language = .ok result ∧ result.newContent = content) ↔
      replaceInMemory syntaxCheck original oldText newText language = .ok content := by
  rw [replaceInMemory_ok_iff]
  simp only [replaceNode_ok_iff found,commit_ok_iff]
  constructor
  · rintro ⟨result, ⟨one, offset, -, passed, -, rfl⟩, rfl⟩
    exact ⟨one, passed, rfl⟩
  · rintro ⟨one, passed, rfl⟩
    exact ⟨_, ⟨one, _, rfl, passed, fun _ => writes, rfl⟩, rfl⟩

/-- A text matched once is replaced alone exactly when no two of its occurrences overlap. -/
theorem replacesOne_iff (one : matchCount oldText.toList original.toList = 1) :
    ReplacesOne original oldText newText (String.ofList (replaceFirst oldText.toList newText.toList original.toList)) ↔
      overlapping oldText.toList original.toList = false := by
  constructor
  · rintro ⟨before, after, -, -, only⟩
    rw [Bool.eq_false_iff]
    intro overlaps
    simp only [overlapping,List.any_eq_true,decide_eq_true_eq] at overlaps
    obtain ⟨i, -, j, -, less, -, first, second⟩ := overlaps
    have same := ((only i).mp first).trans ((only j).mp second).symm
    omega
  · intro apart
    obtain ⟨before, after, split, replaced, only⟩ := unique_of_matchCount one apart newText.toList
    exact ⟨before, after, split, by rw [String.toList_ofList,replaced], only⟩

theorem keepsLines_iff (original : String) (n : Nat) (contentToInsert : String) :
    KeepsLines original n contentToInsert (insertedText original n contentToInsert) ↔ ¬ HasCrLf original :=
  ⟨not_hasCrLf_of_keeps, keeps_of_not_hasCrLf n⟩

end

/-- An insertion keeps the text exactly when no line ends in carriage return and line feed, a replacement is of the one
occurrence there is exactly when no two overlap, and the twin in memory passes and gives the same. -/
theorem edits_iff (syntaxCheck : String → SyntaxLanguage → SyntaxCheckResult) (path original language : String) (writes : Bool) :
    (∀ n contentToInsert result, insertAfterLine syntaxCheck ⟨path, some original, writes⟩ n contentToInsert language = .ok result →
      PatchSite.after ⟨path, some original, writes⟩ (.ok result) = some result.newContent ∧
        (KeepsLines original n contentToInsert result.newContent ↔ ¬ HasCrLf original)) ∧
    (∀ oldText newText result, replaceNode syntaxCheck ⟨path, some original, writes⟩ oldText newText language = .ok result →
      PatchSite.after ⟨path, some original, writes⟩ (.ok result) = some result.newContent ∧
        (ReplacesOne original oldText newText result.newContent ↔ overlapping oldText.toList original.toList = false)) ∧
    (∀ oldText newText content, replaceInMemory syntaxCheck original oldText newText language = .ok content →
      (ReplacesOne original oldText newText content ↔ overlapping oldText.toList original.toList = false)) ∧
    ∀ oldText newText content, writes = true →
      ((∃ result, replaceNode syntaxCheck ⟨path, some original, writes⟩ oldText newText language = .ok result ∧
        result.newContent = content) ↔ replaceInMemory syntaxCheck original oldText newText language = .ok content) := by
  refine ⟨fun n contentToInsert result done => ?_, fun oldText newText result done => ?_,
    fun oldText newText content done => ?_, fun oldText newText content writes => replaceNode_twin rfl writes⟩
  · obtain ⟨same, after⟩ := insertAfterLine_ok rfl done
    rw [same]
    exact ⟨after, keepsLines_iff original n contentToInsert⟩
  · obtain ⟨one, offset, -, committed⟩ := (replaceNode_ok_iff rfl).mp done
    obtain ⟨same, after⟩ := after_commit rfl committed
    rw [same]
    exact ⟨after, replacesOne_iff one⟩
  · obtain ⟨one, -, rfl⟩ := replaceInMemory_ok_iff.mp done
    exact replacesOne_iff one

def skipAll : String → SyntaxLanguage → SyntaxCheckResult := fun _ _ => .skipped "unknown language — syntax check skipped"

/-- A line put into a text with both line ends, and `aa` replaced in `aaa`. -/
theorem edits_change_more :
    (∃ result, insertAfterLine skipAll ⟨"a.txt", some "a\r\nb\r\n", true⟩ 1 "x" "txt" = .ok result ∧
      ¬ KeepsLines "a\r\nb\r\n" 1 "x" result.newContent) ∧
    ∃ result, replaceNode skipAll ⟨"a.txt", some "aaa", true⟩ "aa" "b" "txt" = .ok result ∧
      ¬ ReplacesOne "aaa" "aa" "b" result.newContent := by
  constructor
  · refine ⟨_, rfl, fun keeps => ?_⟩
    exact (keepsLines_iff "a\r\nb\r\n" 1 "x").mp keeps ⟨['a'], ['b', '\r', '\n'], rfl⟩
  · refine ⟨_, rfl, fun replaces => ?_⟩
    have apart := (replacesOne_iff rfl).mp replaces
    exact absurd apart (by decide)

end Zaion.Aci
