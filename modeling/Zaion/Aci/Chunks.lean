import Zaion.Aci.Merge

/-! The chunks of a source hold its lines: every line that is not blank is in one chunk, and the chunks keep
the order. A line ends at a line feed and the carriage returns before it. -/
namespace Zaion.Aci

open Lib
open Tools (lines)

/-- A line without the carriage returns at its end. -/
def bare (line : List Char) : List Char := line.rdropWhile fun c => decide (c = '\r')

def visible (line : List Char) : Bool := line.any fun c => !isWhiteSpace c

def visibleLines (pieces : List (List Char)) : List (List Char) := (pieces.map bare).filter visible

/-- The lines of a text that are not blank. -/
def nonBlankLines (text : String) : List (List Char) := visibleLines (text.toList.splitOn '\n')

@[simp] theorem visibleLines_append (a b : List (List Char)) : visibleLines (a ++ b) = visibleLines a ++ visibleLines b := by
  simp [visibleLines]

theorem visible_bare (line : List Char) : visible (bare line) = visible line := by
  have split : line = bare line ++ (line.reverse.takeWhile fun c => decide (c = '\r')).reverse := by
    rw [bare,List.rdropWhile,← List.reverse_append,List.takeWhile_append_dropWhile,List.reverse_reverse]
  have returns : ((line.reverse.takeWhile fun c => decide (c = '\r')).reverse.any fun c => !isWhiteSpace c) = false := by
    rw [List.any_eq_false]
    intro c member
    rw [List.mem_reverse] at member
    have same := List.mem_takeWhile_imp member
    rw [of_decide_eq_true same]
    decide
  conv_rhs => rw [split,visible,List.any_append,returns,Bool.or_false]
  rfl

theorem nonBlankLines_cut (a b : List Char) :
    nonBlankLines (String.ofList (a ++ '\n' :: b)) = nonBlankLines (String.ofList a) ++ nonBlankLines (String.ofList b) := by
  simp only [nonBlankLines,String.toList_ofList,List.splitOn_append_cons_self,visibleLines_append]

/-- Lines do not go on over the end of a closed text. -/
theorem nonBlankLines_append (a b : String) : nonBlankLines (a ++ "\n" ++ b) = nonBlankLines (a ++ "\n") ++ nonBlankLines b := by
  have closed := nonBlankLines_cut a.toList []
  have whole := nonBlankLines_cut a.toList b.toList
  have ending : (a ++ "\n").toList = a.toList ++ '\n' :: [] := by rw [String.toList_append]; rfl
  have all : (a ++ "\n" ++ b).toList = a.toList ++ '\n' :: b.toList := by
    rw [String.toList_append,ending,List.append_assoc]
    rfl
  rw [← ending,String.ofList_toList,String.ofList_toList] at closed
  rw [← all,String.ofList_toList,String.ofList_toList,String.ofList_toList] at whole
  rw [whole,closed]
  exact congrArg (· ++ nonBlankLines b) (List.append_nil _).symm

/-- The lines hold all but the line feeds. -/
theorem mem_splitOn {xs : List Char} {c : Char} : (∃ piece ∈ xs.splitOn '\n', c ∈ piece) ↔ c ∈ xs ∧ c ≠ '\n' := by
  induction xs with
  | nil => simp
  | cons x xs ih =>
    rw [List.splitOn_cons_eq_if_modifyHead]
    split
    · rename_i feed
      rw [beq_iff_eq] at feed
      subst feed
      simp only [List.mem_cons,exists_eq_or_imp,List.not_mem_nil,false_or,ih]
      exact ⟨fun ⟨later, other⟩ => ⟨.inr later, other⟩, fun ⟨either, other⟩ => ⟨either.resolve_left other, other⟩⟩
    · rename_i other
      rw [beq_iff_eq] at other
      cases pieces : xs.splitOn '\n' with
      | nil => exact absurd pieces (List.splitOn_ne_nil _ _)
      | cons head rest =>
        rw [pieces] at ih
        simp only [List.mem_cons,exists_eq_or_imp] at ih
        simp only [List.modifyHead_cons,List.mem_cons,exists_eq_or_imp]
        rw [or_assoc,ih,or_and_right]
        exact or_congr_left ⟨fun same => ⟨same, same ▸ other⟩, And.left⟩

/-- A text is blank when all of its lines are. -/
theorem nonBlankLines_eq_nil {text : String} : nonBlankLines text = [] ↔ trim text = "" := by
  rw [trim_eq_empty_iff,nonBlankLines,visibleLines,List.filter_eq_nil_iff]
  constructor
  · intro blank c member
    by_cases feed : c = '\n'
    · rw [feed]
      decide
    · obtain ⟨piece, inside, here⟩ := mem_splitOn.mpr ⟨member, feed⟩
      have none := blank _ (List.mem_map_of_mem inside)
      rw [visible_bare,visible,List.any_eq_true] at none
      by_contra seen
      exact none ⟨c, here, by simpa using seen⟩
  · intro blank line member
    obtain ⟨piece, inside, rfl⟩ := List.mem_map.mp member
    rw [visible_bare,visible,List.any_eq_true]
    rintro ⟨c, here, seen⟩
    have white := blank c (mem_splitOn.mp ⟨piece, inside, here⟩).1
    rw [white] at seen
    cases seen

/-- Lines as the loop gathers them. -/
def gathered (part : List String) : List (List Char) := visibleLines (part.map String.toList)

theorem nonBlankLines_intercalate {part : List String} (plain : ∀ line ∈ part, '\n' ∉ line.toList) :
    nonBlankLines ("\n".intercalate part ++ "\n") = gathered part := by
  have cut := nonBlankLines_cut (List.intercalate ['\n'] (part.map String.toList)) []
  have text : String.ofList (List.intercalate ['\n'] (part.map String.toList) ++ '\n' :: []) = "\n".intercalate part ++ "\n" := by
    rw [← String.toList_inj,String.toList_ofList,String.toList_append,String.toList_intercalate]
    rfl
  rw [text] at cut
  rw [cut]
  refine (List.append_nil _).trans ?_
  rw [nonBlankLines,String.toList_ofList]
  cases part with
  | nil => rfl
  | cons first rest =>
    rw [List.splitOn_intercalate,gathered]
    · simpa using plain
    · simp

theorem bare_dropLast {line : List Char} (closed : line.getLast? = some '\r') : bare line.dropLast = bare line := by
  obtain ⟨front, rfl⟩ := List.getLast?_eq_some_iff.mp closed
  rw [List.dropLast_concat,bare,bare,List.rdropWhile_concat_pos _ _ _ (by decide)]

/-- The lines of a source, as `str::lines` has them. -/
theorem gathered_lines (source : String) : gathered (lines source) = nonBlankLines source := by
  have parts := List.dropLast_append_getLast (List.splitOn_ne_nil '\n' source.toList)
  have found := List.getLast?_eq_some_getLast (List.splitOn_ne_nil '\n' source.toList)
  generalize List.getLast _ (List.splitOn_ne_nil '\n' source.toList) = final at parts found
  have stripped : ∀ pieces : List (List Char), (pieces.map fun line =>
      if line.getLast? = some '\r' then line.dropLast else line).map bare = pieces.map bare := by
    intro pieces
    rw [List.map_map]
    refine List.map_congr_left fun line _ => ?_
    rw [Function.comp_apply]
    split
    · rename_i closed
      exact bare_dropLast closed
    · rfl
  have ends : visibleLines (if final = [] then [] else [final]) = visibleLines [final] := by
    split
    · rename_i empty
      rw [empty]
      rfl
    · rfl
  rw [gathered,nonBlankLines,lines]
  simp only [List.map_map,Function.comp_def,String.toList_ofList,List.map_id']
  rw [found,Option.getD_some,visibleLines_append,ends,visibleLines,stripped,← visibleLines,← visibleLines_append,parts]

theorem lines_plain (source : String) : ∀ line ∈ lines source, '\n' ∉ line.toList := by
  have plain : ∀ piece ∈ source.toList.splitOn '\n', '\n' ∉ piece :=
    fun piece inside here => (mem_splitOn.mp ⟨piece, inside, here⟩).2 rfl
  intro line member
  rw [lines] at member
  obtain ⟨piece, inside, rfl⟩ := List.mem_map.mp member
  rw [String.toList_ofList]
  rcases List.mem_append.mp inside with early | last
  · obtain ⟨whole, part, rfl⟩ := List.mem_map.mp early
    have none := plain whole (List.dropLast_subset _ part)
    split
    · exact fun here => none (List.dropLast_subset _ here)
    · exact none
  · split at last
    · cases last
    · rename_i some_
      rw [List.mem_singleton.mp last]
      cases found : (source.toList.splitOn '\n').getLast? with
      | none => simp
      | some final => exact plain final (List.mem_of_getLast? found)

@[simp] theorem gathered_append (a b : List String) : gathered (a ++ b) = gathered a ++ gathered b := by simp [gathered]

variable {shortHash : String → String}

/-- A chunk of a source: hashed, closed by a line feed and not blank. -/
structure AstChunk.Cut (shortHash : String → String) (chunk : AstChunk) : Prop where
  hashed : chunk.hash = shortHash chunk.text
  closed : ∃ body, chunk.text = body ++ "\n"
  shows : nonBlankLines chunk.text ≠ []

namespace Chunker

/-- The lines the loop has seen. -/
def seen (state : Chunker) : List (List Char) := state.chunks.flatMap (fun c => nonBlankLines c.text) ++ gathered state.currentLines

structure Good (shortHash : String → String) (state : Chunker) : Prop where
  cut : ∀ c ∈ state.chunks, c.Cut shortHash
  plain : ∀ line ∈ state.currentLines, '\n' ∉ line.toList

theorem cut_concat {chunks : List AstChunk} {part : List String} (cut : ∀ c ∈ chunks, c.Cut shortHash)
    (plain : ∀ line ∈ part, '\n' ∉ line.toList) (shows : gathered part ≠ []) (start : Nat) :
    ∀ c ∈ chunks ++ [.new shortHash ("\n".intercalate part ++ "\n") start], c.Cut shortHash := by
  intro c member
  rcases List.mem_append.mp member with earlier | new
  · exact cut c earlier
  · rw [List.mem_singleton.mp new]
    exact ⟨rfl, ⟨_, rfl⟩, by rw [AstChunk.new,nonBlankLines_intercalate plain]; exact shows⟩

/-- With nothing gathered. -/
theorem good_nil {chunks : List AstChunk} {start : Nat} {depth : Int32} (cut : ∀ c ∈ chunks, c.Cut shortHash) :
    Good shortHash ⟨chunks, [], start, depth⟩ ∧
      seen ⟨chunks, [], start, depth⟩ = chunks.flatMap (fun c => nonBlankLines c.text) :=
  ⟨⟨cut, fun _ none => absurd none List.not_mem_nil⟩, List.append_nil _⟩

/-- Flushing keeps the lines. -/
theorem flushed_spec {state : Chunker} (good : state.Good shortHash) : (∀ c ∈ state.flushed shortHash, c.Cut shortHash) ∧
    (state.flushed shortHash).flatMap (fun c => nonBlankLines c.text) = state.seen := by
  rw [flushed,seen]
  split
  · rename_i blank
    rw [← nonBlankLines_eq_nil,nonBlankLines_intercalate good.plain] at blank
    rw [blank,List.append_nil]
    exact ⟨good.cut, rfl⟩
  · rename_i shows
    rw [← nonBlankLines_eq_nil,nonBlankLines_intercalate good.plain] at shows
    refine ⟨cut_concat good.cut good.plain shows _, ?_⟩
    rw [List.flatMap_append,List.flatMap_singleton,AstChunk.new,nonBlankLines_intercalate good.plain]

variable {state : Chunker} {lineIdx : Nat} {line nextLine : String}

theorem openBlock_spec (good : state.Good shortHash) :
    (state.openBlock shortHash lineIdx line).Good shortHash ∧ (state.openBlock shortHash lineIdx line).seen = state.seen := by
  rw [openBlock]
  split
  · obtain ⟨cut, same⟩ := flushed_spec good
    have empty := @good_nil shortHash _ lineIdx state.depth cut
    exact ⟨empty.1, empty.2.trans same⟩
  · exact ⟨good, rfl⟩

theorem pushLine_spec (good : state.Good shortHash) (plain : '\n' ∉ line.toList) :
    (state.pushLine line).Good shortHash ∧ (state.pushLine line).seen = state.seen ++ gathered [line] := by
  refine ⟨⟨good.cut, fun other member => ?_⟩, ?_⟩
  · rcases List.mem_append.mp member with earlier | new
    · exact good.plain other earlier
    · rw [List.mem_singleton.mp new]
      exact plain
  · rw [seen,seen,pushLine,gathered_append,List.append_assoc]

theorem closeBlock_spec (good : state.Good shortHash) : (state.closeBlock shortHash lineIdx nextLine).Good shortHash ∧
    (state.closeBlock shortHash lineIdx nextLine).seen = state.seen := by
  rw [closeBlock]
  simp only
  split
  swap
  · exact ⟨good, rfl⟩
  split
  swap
  · exact ⟨good, rfl⟩
  split
  swap
  · exact ⟨good, rfl⟩
  rename_i large _
  have shows : gathered state.currentLines ≠ [] := by
    intro blank
    rw [← nonBlankLines_intercalate good.plain,nonBlankLines_eq_nil,trim_eq_empty_iff,String.toList_append] at blank
    have none := trim_eq_empty_iff.mpr fun c member => blank c (List.mem_append_left _ member)
    rw [none] at large
    exact absurd large (by decide)
  have empty := @good_nil shortHash _ (lineIdx + 1) state.depth (cut_concat good.cut good.plain shows state.currentStart)
  refine ⟨empty.1, empty.2.trans ?_⟩
  rw [List.flatMap_append,List.flatMap_singleton,AstChunk.new,nonBlankLines_intercalate good.plain,seen]

theorem run_spec {rest : List String} (good : state.Good shortHash) (plain : ∀ line ∈ rest, '\n' ∉ line.toList) :
    (run shortHash lineIdx rest state).Good shortHash ∧ (run shortHash lineIdx rest state).seen = state.seen ++ gathered rest := by
  induction rest generalizing state lineIdx with
  | nil => exact ⟨good, (List.append_nil _).symm⟩
  | cons line rest ih =>
    have opened : (state.openBlock shortHash lineIdx line).Good shortHash ∧ _ := openBlock_spec good
    have pushed := pushLine_spec opened.1 (plain line List.mem_cons_self)
    have closed : (closeBlock shortHash _ lineIdx (rest.head?.getD "")).Good shortHash ∧ _ := closeBlock_spec pushed.1
    have later := @ih _ (lineIdx + 1) closed.1 fun other member => plain other (.tail _ member)
    rw [run]
    refine ⟨later.1, later.2.trans ?_⟩
    rw [closed.2,pushed.2,opened.2,List.append_assoc,← gathered_append,List.singleton_append]

end Chunker

theorem chunkSource_spec (shortHash : String → String) (source : String) :
    (∀ c ∈ chunkSource shortHash source, c.Cut shortHash) ∧
      (chunkSource shortHash source).flatMap (fun c => nonBlankLines c.text) = nonBlankLines source := by
  rw [chunkSource]
  split
  · rename_i blank
    exact ⟨fun _ none => absurd none List.not_mem_nil, (nonBlankLines_eq_nil.mpr blank).symm⟩
  rename_i shows
  have start : Chunker.Good shortHash ⟨[], [], 0, 0⟩ := (Chunker.good_nil fun _ none => absurd none List.not_mem_nil).1
  obtain ⟨good, all⟩ : (Chunker.run shortHash 0 (lines source) ⟨[], [], 0, 0⟩).Good shortHash ∧ _ :=
    Chunker.run_spec start (lines_plain source)
  rw [gathered_lines] at all
  generalize Chunker.run shortHash 0 (lines source) ⟨[], [], 0, 0⟩ = state at good all
  have flushed : ∀ chunks, chunks = (if state.currentLines ≠ [] then state.flushed shortHash else state.chunks) →
      (∀ c ∈ chunks, c.Cut shortHash) ∧ chunks.flatMap (fun c => nonBlankLines c.text) = nonBlankLines source := by
    rintro _ rfl
    split
    · obtain ⟨cut, same⟩ := Chunker.flushed_spec good
      exact ⟨cut, same.trans all⟩
    · rename_i empty
      rw [not_not] at empty
      rw [Chunker.seen,empty] at all
      exact ⟨good.cut, (List.append_nil _).symm.trans all⟩
  obtain ⟨cut, same⟩ := flushed _ rfl
  simp only
  generalize (if state.currentLines ≠ [] then state.flushed shortHash else state.chunks) = chunks at cut same ⊢
  split
  · rename_i none
    rw [none] at same
    exact absurd (nonBlankLines_eq_nil.mp same.symm) shows
  · exact ⟨cut, same⟩

/-- The hashes are those of the texts. -/
theorem map_hash_chunkSource (shortHash : String → String) (source : String) :
    (chunkSource shortHash source).map AstChunk.hash = ((chunkSource shortHash source).map AstChunk.text).map shortHash := by
  rw [List.map_map]
  exact List.map_congr_left fun c member => ((chunkSource_spec shortHash source).1 c member).hashed

end Zaion.Aci
