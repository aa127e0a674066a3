import Zaion.Aci.Chunks
import Zaion.Aci.Resolved
import Mathlib.InformationTheory.Coding.UniquelyDecodable

/-! A branch merged into its own base. The lines come out as the branch has them where the chunks the branch
changed stand where those they are paired with stood; a chunk that moved, or one put in between, comes out
in another place. -/
namespace Zaion.Aci

open Lib
open InformationTheory (UniquelyDecodable)

/-- The texts of the chunks of a source. -/
def texts (shortHash : String → String) (source : String) : List String :=
  (chunkSource shortHash source).map AstChunk.text

/-- The lines of the chunk at a position. -/
def linesAt (chunks : List String) (i : Nat) : Option (List (List Char)) := chunks[i]?.map nonBlankLines

/-- The lost chunks with the fresh ones they are paired with, first to first. -/
def pairs (base branch : List String) : List (Nat × Nat) := (lost base branch).zip (fresh base branch)

/-- What is left of the fresh chunks, each once. -/
def leftOver (base branch : List String) : List String :=
  (((fresh base branch).drop (lost base branch).length).filterMap (branch[·]?)).eraseDups

/-- The branch has its changes in place: what a lost chunk is paired with stands where that chunk and its
copies stood, the other chunks of the base are where they were, and behind all of them stands what is
left of the fresh chunks, each once. -/
structure InPlace (base branch : List String) : Prop where
  paired : ∀ i j, (i, j) ∈ pairs base branch → linesAt branch i = linesAt branch j
  copies : ∀ i ∈ lost base branch, ∀ k, base[k]? = base[i]? → linesAt branch k = linesAt branch i
  kept : ∀ i, i < base.length → (∀ k ∈ lost base branch, base[k]? ≠ base[i]?) → linesAt branch i = linesAt base i
  rest : (leftOver base branch).map nonBlankLines =
    (branch.drop base.length).map nonBlankLines

variable {base branch result : List String}

/-! What a merge without conflicts makes of the base -/

/-- The texts that stand in the place of the base's. -/
structure Merged (base branch result : List String) : Prop where
  length : result.length = base.length
  found : ∀ i ∈ lost base branch, ∃ j, (i, j) ∈ pairs base branch
  agree : ∀ i j i' j', (i, j) ∈ pairs base branch →
    (i', j') ∈ pairs base branch → base[i]? = base[i']? → branch[j]? = branch[j']?
  outcome : ∀ k, k < base.length → ((∀ i ∈ lost base branch, base[i]? ≠ base[k]?) ∧ result[k]? = base[k]?) ∨
    ∃ i j, (i, j) ∈ pairs base branch ∧ base[i]? = base[k]? ∧ result[k]? = branch[j]?

theorem lost_lt {i : Nat} (member : i ∈ lost base branch) : i < base.length := by
  obtain ⟨_, at_, _⟩ := mem_lost.mp member
  exact (List.getElem?_eq_some_iff.mp at_).1

namespace Merged

variable (merged : Merged base branch result)

include merged

/-- In the place of a lost chunk and its copies stands what it is paired with. -/
theorem at_pair {i j k : Nat} (pair : (i, j) ∈ pairs base branch) (copy : base[k]? = base[i]?) :
    result[k]? = branch[j]? := by
  have inside := lost_lt (List.of_mem_zip pair).1
  have bound : k < base.length := by
    rw [List.getElem?_eq_getElem inside] at copy
    exact (List.getElem?_eq_some_iff.mp copy).1
  rcases merged.outcome k bound with ⟨none, _⟩ | ⟨i', j', pair', copy', at_⟩
  · exact absurd copy.symm (none i (List.of_mem_zip pair).1)
  · exact at_.trans (merged.agree i' j' i j pair' pair (copy'.trans copy))

theorem inPlace_iff : (∀ k, k < base.length → linesAt result k = linesAt branch k) ↔
    (∀ i j, (i, j) ∈ pairs base branch → linesAt branch i = linesAt branch j) ∧
    (∀ i ∈ lost base branch, ∀ k, base[k]? = base[i]? → linesAt branch k = linesAt branch i) ∧
    (∀ k, k < base.length → (∀ i ∈ lost base branch, base[i]? ≠ base[k]?) → linesAt branch k = linesAt base k) := by
  constructor
  · intro same
    have here : ∀ i j k, (i, j) ∈ pairs base branch → base[k]? = base[i]? →
        linesAt branch k = linesAt branch j := by
      intro i j k pair copy
      have inside := lost_lt (List.of_mem_zip pair).1
      have bound : k < base.length := by
        rw [List.getElem?_eq_getElem inside] at copy
        exact (List.getElem?_eq_some_iff.mp copy).1
      rw [← same k bound,linesAt,merged.at_pair pair copy,linesAt]
    refine ⟨fun i j pair => here i j i pair rfl, fun i member k copy => ?_, fun k bound none => ?_⟩
    · obtain ⟨j, pair⟩ := merged.found i member
      rw [here i j k pair copy,here i j i pair rfl]
    · rcases merged.outcome k bound with ⟨_, at_⟩ | ⟨i, _, pair, copy, _⟩
      · rw [← same k bound,linesAt,at_,linesAt]
      · exact absurd copy (none i (List.of_mem_zip pair).1)
  · rintro ⟨paired, copies, kept⟩ k bound
    rcases merged.outcome k bound with ⟨none, at_⟩ | ⟨i, j, pair, copy, at_⟩
    · rw [kept k bound none,linesAt,at_,linesAt]
    · rw [copies i (List.of_mem_zip pair).1 k copy.symm,paired i j pair,linesAt,at_,linesAt]

/-- With the additions behind, the blocks of lines are the branch's just when its changes are in place. -/
theorem blocks_iff : ((result ++ leftOver base branch).map
    nonBlankLines = branch.map nonBlankLines) ↔ InPlace base branch := by
  generalize additions : leftOver base branch = rest
  have split : branch.map nonBlankLines = (branch.take base.length).map nonBlankLines ++
      (branch.drop base.length).map nonBlankLines := by rw [← List.map_append,List.take_append_drop]
  have front : result.map nonBlankLines = (branch.take base.length).map nonBlankLines ↔
      ∀ k, k < base.length → linesAt result k = linesAt branch k := by
    rw [List.ext_getElem?_iff]
    constructor
    · intro same k bound
      have at_ := same k
      rwa [List.getElem?_map,List.getElem?_map,List.getElem?_take_of_lt bound] at at_
    · intro same k
      rw [List.getElem?_map,List.getElem?_map]
      rcases Nat.lt_or_ge k base.length with bound | outside
      · rw [List.getElem?_take_of_lt bound]
        exact same k bound
      · rw [List.getElem?_take_eq_none outside,List.getElem?_eq_none (merged.length ▸ outside)]
  have both : (result ++ rest).map nonBlankLines = branch.map nonBlankLines ↔
      result.map nonBlankLines = (branch.take base.length).map nonBlankLines ∧
        rest.map nonBlankLines = (branch.drop base.length).map nonBlankLines := by
    rw [split,List.map_append]
    constructor
    · intro same
      have count := congrArg List.length same
      simp only [List.length_append,List.length_map,List.length_take,List.length_drop,merged.length] at count
      refine List.append_inj same ?_
      rw [List.length_map,List.length_map,List.length_take,merged.length]
      omega
    · rintro ⟨first, second⟩
      rw [first,second]
  rw [both,front,merged.inPlace_iff,← additions]
  exact ⟨fun ⟨⟨paired, copies, kept⟩, rest⟩ => ⟨paired, copies, kept, rest⟩,
    fun inPlace => ⟨⟨inPlace.paired, inPlace.copies, inPlace.kept⟩, inPlace.rest⟩⟩

/-- All that is in the place of the base's is the branch's. -/
theorem mem_branch {text : String} (member : text ∈ result) : text ∈ branch := by
  obtain ⟨k, at_⟩ := List.mem_iff_getElem?.mp member
  have bound : k < base.length := merged.length ▸ (List.getElem?_eq_some_iff.mp at_).1
  rcases merged.outcome k bound with ⟨none, same⟩ | ⟨_, j, _, _, same⟩
  · by_contra gone
    exact none k (mem_lost.mpr ⟨text, same.symm.trans at_, .inl gone⟩) rfl
  · exact List.mem_of_getElem? (same.symm.trans at_)

end Merged

/-! From hashes to texts -/

variable {f : String → String}

theorem positionsOf_map {chosen chosen' : Nat → String → Bool} {xs : List String}
    (same : ∀ i h, xs[i]? = some h → chosen' i (f h) = chosen i h) :
    positionsOf chosen' (xs.map f) = positionsOf chosen xs := by
  rw [positionsOf,positionsOf,List.length_map]
  refine List.filter_congr fun i _ => ?_
  rw [List.getElem?_map]
  cases at_ : xs[i]? with
  | none => rfl
  | some h => exact same i h at_

/-- Hashing keeps apart what is in one of two lists. -/
def Clear (f : String → String) (xs ys : List String) : Prop := ∀ x ∈ xs ++ ys, ∀ y ∈ xs ++ ys, f x = f y → x = y

theorem mem_map_clear (clear : Clear f base branch) {part : List String} (inside : part ⊆ base ++ branch) {x : String}
    (member : x ∈ base ++ branch) : f x ∈ part.map f ↔ x ∈ part := by
  constructor
  · intro mapped
    obtain ⟨y, there, same⟩ := List.mem_map.mp mapped
    exact clear y (inside there) x member same ▸ there
  · exact List.mem_map_of_mem

theorem lost_map (clear : Clear f base branch) : lost (base.map f) (branch.map f) = lost base branch := by
  refine positionsOf_map fun i h at_ => ?_
  have member : h ∈ base ++ branch := List.mem_append_left _ (List.mem_of_getElem? at_)
  rw [← List.map_drop,Bool.eq_iff_iff,decide_eq_true_eq,decide_eq_true_eq,
    mem_map_clear clear (List.subset_append_right _ _) member,
    mem_map_clear clear (fun _ inside => List.mem_append_left _ (List.mem_of_mem_drop inside)) member]

theorem fresh_map (clear : Clear f base branch) : fresh (base.map f) (branch.map f) = fresh base branch := by
  refine positionsOf_map fun j h at_ => ?_
  have member : h ∈ base ++ branch := List.mem_append_right _ (List.mem_of_getElem? at_)
  rw [← List.map_take,Bool.eq_iff_iff,decide_eq_true_eq,decide_eq_true_eq,
    mem_map_clear clear (List.subset_append_left _ _) member,
    mem_map_clear clear (fun _ inside => List.mem_append_right _ (List.mem_of_mem_take inside)) member]

/-- Each hash once is each text once. -/
theorem dedup_eq {additions : List AstChunk} (same : ∀ c ∈ additions, ∀ d ∈ additions, c.hash = d.hash ↔ c.text = d.text)
    (seen : List String) : AstMergeResolver.dedup seen additions =
      ((additions.filter fun c => decide (c.hash ∉ seen)).map AstChunk.text).eraseDups := by
  induction additions generalizing seen with
  | nil => rfl
  | cons c rest ih =>
    have later := ih fun d inside e inside' => same d (.tail _ inside) e (.tail _ inside')
    rw [AstMergeResolver.dedup]
    by_cases known : c.hash ∈ seen
    · rw [if_pos known,later,List.filter_cons_of_neg (by simp [known])]
    · rw [if_neg known,later,List.filter_cons_of_pos (by simp [known]),List.map_cons,List.eraseDups_cons,List.filter_map,
        List.filter_filter]
      congr 3
      refine List.filter_congr fun d inside => ?_
      have equal := same d (.tail _ inside) c (.head _)
      by_cases copy : d.text = c.text
      · simp [copy,equal.mpr copy]
      · simp [copy,mt equal.mp copy]

theorem mem_zip_or_drop {i : Nat} {xs ys : List Nat} (member : i ∈ xs) :
    (∃ j, (i, j) ∈ xs.zip ys) ∨ i ∈ xs.drop ys.length := by
  induction xs generalizing ys with
  | nil => cases member
  | cons x xs ih =>
    cases ys with
    | nil => exact .inr member
    | cons y ys =>
      rcases List.mem_cons.mp member with rfl | later
      · exact .inl ⟨y, List.mem_cons_self⟩
      · exact (ih later).imp (fun ⟨j, pair⟩ => ⟨j, .tail _ pair⟩) id

/-! The merge of one branch -/

section

variable {shortHash : String → String} {syntaxCheck : String → String → SyntaxCheckResult}
  {source branchId edited language : String}

theorem nonBlankLines_join {parts : List String} (closed : ∀ text ∈ parts, ∃ body, text = body ++ "\n") :
    nonBlankLines (String.join parts) = (parts.map nonBlankLines).flatten := by
  induction parts with
  | nil => rfl
  | cons text parts ih =>
    obtain ⟨body, rfl⟩ := closed text List.mem_cons_self
    rw [String.join_cons,nonBlankLines_append,ih fun other member => closed other (.tail _ member)]
    rfl

theorem texts_closed {text : String} (member : text ∈ texts shortHash source) : ∃ body, text = body ++ "\n" := by
  obtain ⟨c, inside, rfl⟩ := List.mem_map.mp member
  exact ((chunkSource_spec shortHash source).1 c inside).closed

theorem texts_lines : ((texts shortHash source).map nonBlankLines).flatten = nonBlankLines source := by
  rw [texts,List.map_map]
  exact (chunkSource_spec shortHash source).2

theorem text_at {i : Nat} {c : AstChunk} (at_ : (chunkSource shortHash source)[i]? = some c) :
    (texts shortHash source)[i]? = some c.text := by
  rw [texts,List.getElem?_map,at_]
  rfl

theorem chunk_of_text {i : Nat} {text : String} (at_ : (texts shortHash source)[i]? = some text) :
    ∃ c, (chunkSource shortHash source)[i]? = some c ∧ c.text = text ∧ c.hash = shortHash text := by
  rw [texts,List.getElem?_map] at at_
  obtain ⟨c, here, rfl⟩ := Option.map_eq_some_iff.mp at_
  exact ⟨c, here, rfl, ((chunkSource_spec shortHash source).1 c (List.mem_of_getElem? here)).hashed⟩

theorem hash_at {i : Nat} {c : AstChunk} (at_ : (chunkSource shortHash source)[i]? = some c) :
    c.hash = shortHash c.text :=
  ((chunkSource_spec shortHash source).1 c (List.mem_of_getElem? at_)).hashed

variable (clear : Clear shortHash (texts shortHash source) (texts shortHash edited))

include clear

theorem modified_text {c v : AstChunk} : .modified c v ∈ AstDiff.diff shortHash source edited ↔
    ∃ i j, (i, j) ∈ pairs (texts shortHash source) (texts shortHash edited) ∧
      (chunkSource shortHash source)[i]? = some c ∧ (chunkSource shortHash edited)[j]? = some v := by
  rw [AstDiff.diff,AstDiff.modified_mem,hashes,hashes,map_hash_chunkSource,map_hash_chunkSource]
  rw [← texts,← texts,lost_map clear,fresh_map clear,← pairs]

theorem deleted_text {c : AstChunk} : .deleted c ∈ AstDiff.diff shortHash source edited ↔
    ∃ i ∈ (lost (texts shortHash source) (texts shortHash edited)).drop
      (fresh (texts shortHash source) (texts shortHash edited)).length, (chunkSource shortHash source)[i]? = some c := by
  rw [AstDiff.diff,AstDiff.deleted_mem,hashes,hashes,map_hash_chunkSource,map_hash_chunkSource]
  rw [← texts,← texts,lost_map clear,fresh_map clear]

theorem additions_text : (AstMergeResolver.dedup []
    ((AstMergeResolver.allChanges shortHash source [(branchId, edited)]).filterMap fun d => d.2.addition?)) =
      leftOver (texts shortHash source) (texts shortHash edited) := by
  have changes : (AstMergeResolver.allChanges shortHash source [(branchId, edited)]).filterMap (fun d => d.2.addition?) =
      (AstDiff.diff shortHash source edited).filterMap AstChange.addition? := by
    rw [AstMergeResolver.allChanges,List.flatMap_singleton,List.filterMap_map]
    rfl
  rw [changes,AstDiff.diff,AstDiff.additions_diffChunks,hashes,hashes,map_hash_chunkSource,map_hash_chunkSource]
  rw [← texts,← texts,lost_map clear,fresh_map clear]
  rw [leftOver,dedup_eq]
  · have at_ : (fun j => (texts shortHash edited)[j]?) =
        fun j => ((chunkSource shortHash edited)[j]?).map AstChunk.text :=
      funext fun j => by rw [texts,List.getElem?_map]
    simp only [List.not_mem_nil,not_false_eq_true,decide_true,List.filter_true,List.map_filterMap,at_]
  · intro c inside d inside'
    obtain ⟨i, _, here⟩ := List.mem_filterMap.mp inside
    obtain ⟨j, _, there⟩ := List.mem_filterMap.mp inside'
    rw [hash_at here,hash_at there]
    refine ⟨clear _ (List.mem_append_right _ ?_) _ (List.mem_append_right _ ?_), fun same => by rw [same]⟩
    · exact List.mem_of_getElem? (text_at here)
    · exact List.mem_of_getElem? (text_at there)

/-- A pair of positions is a modification the merge decides on. -/
theorem modification_of_pair {i j : Nat} (pair : (i, j) ∈ pairs (texts shortHash source) (texts shortHash edited)) :
    ∃ c v, (chunkSource shortHash source)[i]? = some c ∧ (chunkSource shortHash edited)[j]? = some v ∧
      ∃ d ∈ AstMergeResolver.decisionsFor shortHash source [(branchId, edited)] c.hash, d.2.modification? = some v := by
  obtain ⟨text, at_, _⟩ := mem_lost.mp (List.of_mem_zip pair).1
  obtain ⟨text', at', _⟩ := mem_fresh.mp (List.of_mem_zip pair).2
  obtain ⟨c, here, _⟩ := chunk_of_text at_
  obtain ⟨v, there, _⟩ := chunk_of_text at'
  exact ⟨c, v, here, there, AstMergeResolver.modification_mem.mpr
    ⟨(branchId, edited), List.mem_singleton_self _, c, (modified_text clear).mpr ⟨i, j, pair, here, there⟩, rfl⟩⟩

theorem same_text {i k : Nat} {c d : AstChunk} (here : (chunkSource shortHash source)[i]? = some c)
    (there : (chunkSource shortHash source)[k]? = some d) :
    c.hash = d.hash ↔ (texts shortHash source)[i]? = (texts shortHash source)[k]? := by
  rw [hash_at here,hash_at there,text_at here,text_at there,Option.some.injEq]
  refine ⟨clear _ (List.mem_append_left _ ?_) _ (List.mem_append_left _ ?_), fun same => by rw [same]⟩
  · exact List.mem_of_getElem? (text_at here)
  · exact List.mem_of_getElem? (text_at there)

theorem merged_of_clean
    (clean : (AstMergeResolver.merge shortHash syntaxCheck source [(branchId, edited)] language).conflicts = []) :
    ∃ result, Merged (texts shortHash source) (texts shortHash edited) result ∧
      (AstMergeResolver.merge shortHash syntaxCheck source [(branchId, edited)] language).merged =
        String.join (result ++ leftOver (texts shortHash source) (texts shortHash edited)) := by
  have settled := AstMergeResolver.conflicts_eq_nil.mp clean
  obtain ⟨result, outcomes, merged, _⟩ := AstMergeResolver.merged_of_settled clean
  rw [additions_text clear] at merged
  refine ⟨result, ?_, merged⟩
  have found : ∀ i ∈ lost (texts shortHash source) (texts shortHash edited), ∃ j,
      (i, j) ∈ pairs (texts shortHash source) (texts shortHash edited) := by
    intro i member
    refine (mem_zip_or_drop member).resolve_right fun over_ => ?_
    obtain ⟨text, at_, _⟩ := mem_lost.mp member
    obtain ⟨c, here, _, _⟩ := chunk_of_text at_
    obtain ⟨d, decided, deletes⟩ := AstMergeResolver.deletion_mem.mpr
      ⟨(branchId, edited), List.mem_singleton_self _, c, (deleted_text clear).mpr ⟨i, over_, here⟩, rfl⟩
    rw [(settled c (List.mem_of_getElem? here)).kept d decided] at deletes
    cases deletes
  have length : result.length = (texts shortHash source).length := by rw [← outcomes.length_eq,texts,List.length_map]
  refine ⟨length, found, ?_, ?_⟩
  · intro i j i' j' pair pair' same
    obtain ⟨c, v, here, there, d, decided, modified⟩ := modification_of_pair clear pair
    obtain ⟨c', v', here', there', d', decided', modified'⟩ := modification_of_pair clear pair'
    rw [← (same_text clear here here').mpr same] at decided'
    have agree := (settled c (List.mem_of_getElem? here)).agree d decided d' decided' v v' modified modified'
    rw [hash_at there,hash_at there'] at agree
    rw [text_at there,text_at there',clear v.text _ v'.text _ agree]
    · exact List.mem_append_right _ (List.mem_of_getElem? (text_at there))
    · exact List.mem_append_right _ (List.mem_of_getElem? (text_at there'))
  · intro k bound
    obtain ⟨c, at_, _⟩ := chunk_of_text (List.getElem?_eq_getElem bound)
    obtain ⟨text, at', outcome⟩ : ∃ text, result[k]? = some text ∧ AstMergeResolver.Outcome c
        (AstMergeResolver.decisionsFor shortHash source [(branchId, edited)] c.hash) text := by
      obtain ⟨inside, rfl⟩ := List.getElem?_eq_some_iff.mp at_
      have bound' : k < result.length := length.symm ▸ bound
      exact ⟨result[k], List.getElem?_eq_getElem bound', outcomes.get inside bound'⟩
    rcases outcome with ⟨untouched, rfl⟩ | ⟨d, decided, v, modified, rfl⟩
    · refine .inl ⟨fun i member copy => ?_, at'.trans (text_at at_).symm⟩
      obtain ⟨j, pair⟩ := found i member
      obtain ⟨c', v, here, _, d, decided, modified⟩ := modification_of_pair clear pair
      rw [(same_text clear here at_).mpr copy] at decided
      rw [untouched d decided] at modified
      cases modified
    · obtain ⟨_, inside, c', change, same⟩ := AstMergeResolver.modification_mem.mp ⟨d, decided, modified⟩
      obtain rfl := List.mem_singleton.mp inside
      obtain ⟨i, j, pair, here, there⟩ := (modified_text clear).mp change
      exact .inr ⟨i, j, pair, (same_text clear here at_).mp same, at'.trans (text_at there).symm⟩

end

/-- A branch merged into its own base has the branch's lines when its changes are in place; and only then, where
lines tell the branch's chunks apart. -/
theorem fast_forward_lines (shortHash : String → String) (syntaxCheck : String → String → SyntaxCheckResult)
    (source branchId edited language : String)
    (clear : Clear shortHash (texts shortHash source) (texts shortHash edited))
    (clean : (AstMergeResolver.merge shortHash syntaxCheck source [(branchId, edited)] language).conflicts = []) :
    (InPlace (texts shortHash source) (texts shortHash edited) →
      nonBlankLines (AstMergeResolver.merge shortHash syntaxCheck source [(branchId, edited)] language).merged =
        nonBlankLines edited) ∧
    (UniquelyDecodable {block | ∃ text ∈ texts shortHash edited, nonBlankLines text = block} →
      nonBlankLines (AstMergeResolver.merge shortHash syntaxCheck source [(branchId, edited)] language).merged =
        nonBlankLines edited →
      InPlace (texts shortHash source) (texts shortHash edited)) := by
  obtain ⟨result, merged, text⟩ := merged_of_clean clear clean
  have member : ∀ text ∈ result ++ leftOver (texts shortHash source) (texts shortHash edited),
      text ∈ texts shortHash edited := by
    intro text inside
    rcases List.mem_append.mp inside with early | late
    · exact merged.mem_branch early
    · obtain ⟨_, _, at_⟩ := List.mem_filterMap.mp (List.mem_eraseDups.mp late)
      exact List.mem_of_getElem? at_
  rw [text,nonBlankLines_join fun text inside => texts_closed (member text inside),← merged.blocks_iff]
  refine ⟨fun same => by rw [same,texts_lines], fun unique same => unique _ _ ?_ ?_ (same.trans texts_lines.symm)⟩
  · intro block inside
    obtain ⟨text, here, shown⟩ := List.mem_map.mp inside
    exact ⟨text, member text here, shown⟩
  · intro block inside
    exact List.mem_map.mp inside

/-- Two functions, one of which is changed in place, and another put in between. -/
def twoFunctions : String := "fn a() {}\nfn b() {}\n"

def changed : String := "fn a() {}\nfn b() {1}\n"

def inserted : String := "fn a() {}\nfn n() {}\nfn b() {}\n"

theorem two_texts : texts id twoFunctions = ["fn a() {}\n", "fn b() {}\n"] := by decide

theorem changed_texts : texts id changed = ["fn a() {}\n", "fn b() {1}\n"] := by decide

theorem changed_inPlace : InPlace (texts id twoFunctions) (texts id changed) := by
  rw [two_texts,changed_texts]
  have lostOne : lost ["fn a() {}\n", "fn b() {}\n"] ["fn a() {}\n", "fn b() {1}\n"] = [1] := by decide
  have freshOne : fresh ["fn a() {}\n", "fn b() {}\n"] ["fn a() {}\n", "fn b() {1}\n"] = [1] := by decide
  constructor
  · rw [pairs,lostOne,freshOne]
    intro i j pair
    obtain ⟨rfl, rfl⟩ := Prod.ext_iff.mp (List.mem_singleton.mp pair)
    rfl
  · rw [lostOne]
    intro i member k same
    obtain rfl := List.mem_singleton.mp member
    rcases k with _ | _ | k
    · exact absurd same (by decide)
    · rfl
    · cases same
  · rw [lostOne]
    intro i bound other
    rcases i with _ | _ | i
    · rfl
    · exact absurd rfl (other 1 (List.mem_singleton_self _))
    · exact absurd bound (by simp)
  · rw [leftOver,lostOne,freshOne]
    decide

/-- Changes found in order need no sorting. -/
theorem diff_of_sorted {shortHash : String → String} {base branch : String}
    (sorted : (AstDiff.passes (chunkSource shortHash base) (chunkSource shortHash branch)).changes.Pairwise
      fun a b => AstDiff.keyLe a b = true) : AstDiff.diff shortHash base branch =
    (AstDiff.passes (chunkSource shortHash base) (chunkSource shortHash branch)).changes.map PlacedChange.change := by
  rw [AstDiff.diff,AstDiff.diffChunks,List.mergeSort_of_pairwise sorted]

theorem change_merges :
    nonBlankLines (AstMergeResolver.merge id (fun _ _ => .valid) twoFunctions [("x", changed)] "rust").merged =
      nonBlankLines changed := by
  refine (fast_forward_lines id (fun _ _ => .valid) twoFunctions "x" changed "rust" (fun _ _ _ _ same => same) ?_).1
    changed_inPlace
  rw [AstMergeResolver.merge,AstMergeResolver.allChanges,List.flatMap_singleton]
  dsimp only
  rw [diff_of_sorted (by decide)]
  decide

/-- A function put in between comes out at the end. -/
theorem insertion_moves :
    ¬((AstMergeResolver.merge id (fun _ _ => .valid) twoFunctions [("x", inserted)] "rust").conflicts = [] →
    nonBlankLines (AstMergeResolver.merge id (fun _ _ => .valid) twoFunctions [("x", inserted)] "rust").merged =
      nonBlankLines inserted) := by
  rw [AstMergeResolver.merge,AstMergeResolver.allChanges,List.flatMap_singleton]
  dsimp only
  rw [diff_of_sorted (by decide)]
  decide

end Zaion.Aci
