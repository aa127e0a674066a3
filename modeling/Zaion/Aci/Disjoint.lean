import Zaion.Aci.Chunks
import Zaion.Aci.Resolved

/-! Branches that replace chunks of one base in different places merge without conflict, into the base with
all their replacements. -/
namespace Zaion.Aci

variable {shortHash : String → String} {syntaxCheck : String → String → SyntaxCheckResult}

/-- A branch, and the positions where it replaces chunks of the base. -/
structure Edit where
  branchId : String
  content : String
  positions : Nat → Bool

def Edit.branch (edit : Edit) : String × String := (edit.branchId, edit.content)

/-- Edits in different places. -/
def Edit.Apart (e f : Edit) : Prop := ∀ i, ¬(e.positions i = true ∧ f.positions i = true)

instance : Std.Symm Edit.Apart := ⟨fun _ _ apart i both => apart i both.symm⟩

/-- The branch has the base's chunks, but at the positions others that the base has not. -/
structure Replaces (base branch : List AstChunk) (positions : Nat → Bool) : Prop where
  length : branch.length = base.length
  kept : ∀ i, positions i = false → (branch[i]?).map AstChunk.text = (base[i]?).map AstChunk.text
  replaced : ∀ i chunk, positions i = true → branch[i]? = some chunk → chunk.hash ∉ hashes base

/-- The texts with those of the branch at the positions. -/
def applyEdit (branch : List AstChunk) (positions : Nat → Bool) (texts : List String) : List String :=
  texts.zipIdx.map fun entry =>
    if positions entry.2 then ((branch[entry.2]?).map AstChunk.text).getD entry.1 else entry.1

/-- The base's texts with the replacements of all branches. -/
def applied (shortHash : String → String) (base : String) (edits : List Edit) : List String :=
  edits.foldl (fun texts edit => applyEdit (chunkSource shortHash edit.content) edit.positions texts)
    ((chunkSource shortHash base).map AstChunk.text)

/-! Applying edits -/

section

variable {branch : List AstChunk} {positions : Nat → Bool} {texts : List String} {edits : List Edit} {edit : Edit} {i : Nat}

theorem applyEdit_getElem? : (applyEdit branch positions texts)[i]? =
    texts[i]?.map fun text => if positions i then ((branch[i]?).map AstChunk.text).getD text else text := by
  rw [applyEdit,List.getElem?_map,List.getElem?_zipIdx,Option.map_map]
  simp [Function.comp_def]

theorem foldl_applyEdit_length : (edits.foldl (fun texts e =>
    applyEdit (chunkSource shortHash e.content) e.positions texts) texts).length = texts.length := by
  induction edits generalizing texts with
  | nil => rfl
  | cons e rest ih => rw [List.foldl_cons,ih,applyEdit,List.length_map,List.length_zipIdx]

theorem foldl_applyEdit_untouched (untouched : ∀ e ∈ edits, e.positions i = false) :
    (edits.foldl (fun texts e => applyEdit (chunkSource shortHash e.content) e.positions texts) texts)[i]? = texts[i]? := by
  induction edits generalizing texts with
  | nil => rfl
  | cons e rest ih =>
    rw [List.foldl_cons,ih fun other member => untouched other (.tail _ member),applyEdit_getElem?,untouched e (.head _)]
    simp

theorem foldl_applyEdit_touched {v : AstChunk} (apart : edits.Pairwise Edit.Apart)
    (member : edit ∈ edits) (touched : edit.positions i = true) (there : (chunkSource shortHash edit.content)[i]? = some v)
    (inside : i < texts.length) :
    (edits.foldl (fun texts e => applyEdit (chunkSource shortHash e.content) e.positions texts) texts)[i]? = some v.text := by
  induction edits generalizing texts with
  | nil => cases member
  | cons e rest ih =>
    obtain ⟨first, later⟩ := List.pairwise_cons.mp apart
    rw [List.foldl_cons]
    rcases List.mem_cons.mp member with rfl | behind
    · have untouched : ∀ other ∈ rest, other.positions i = false := fun other here =>
        Bool.eq_false_iff.mpr fun also => first other here i ⟨touched, also⟩
      rw [foldl_applyEdit_untouched untouched,applyEdit_getElem?,List.getElem?_eq_getElem inside,there,touched]
      rfl
    · exact ih later behind (by simpa [applyEdit] using inside)

end

/-! What is lost and what is fresh -/

theorem mem_hashes {chunks : List AstChunk} {i : Nat} {c : AstChunk} (at_ : chunks[i]? = some c) :
    (hashes chunks)[i]? = some c.hash := by
  rw [hashes,List.getElem?_map,at_]
  rfl

theorem chunk_at {chunks : List AstChunk} {i : Nat} {h : String} (at_ : (hashes chunks)[i]? = some h) :
    ∃ c, chunks[i]? = some c ∧ c.hash = h := by
  rw [hashes,List.getElem?_map] at at_
  exact Option.map_eq_some_iff.mp at_

namespace Replaces

variable {base branch : String} {positions : Nat → Bool}

theorem kept_hash (replaces : Replaces (chunkSource shortHash base) (chunkSource shortHash branch) positions) {i : Nat}
    (kept : positions i = false) : (hashes (chunkSource shortHash branch))[i]? = (hashes (chunkSource shortHash base))[i]? := by
  have same := replaces.kept i kept
  rw [← List.getElem?_map,← List.getElem?_map] at same
  rw [hashes,hashes,map_hash_chunkSource,map_hash_chunkSource,List.getElem?_map (f := shortHash),
    List.getElem?_map (f := shortHash),same]

variable (replaces : Replaces (chunkSource shortHash base) (chunkSource shortHash branch) positions)
  (distinct : (hashes (chunkSource shortHash base)).Nodup)

include replaces

/-- A replaced chunk is nowhere in the base. -/
theorem replaced_hash {j : Nat} {h : String} (at_ : (hashes (chunkSource shortHash branch))[j]? = some h)
    (inBase : h ∈ hashes (chunkSource shortHash base)) :
    positions j = false ∧ (hashes (chunkSource shortHash base))[j]? = some h := by
  have kept : positions j = false := by
    by_contra touched
    obtain ⟨d, there, rfl⟩ := chunk_at at_
    exact replaces.replaced j d (Bool.not_eq_false _ ▸ touched) there inBase
  exact ⟨kept, replaces.kept_hash kept ▸ at_⟩

include distinct

theorem lost_eq : lost (hashes (chunkSource shortHash base)) (hashes (chunkSource shortHash branch)) =
    (List.range (chunkSource shortHash base).length).filter positions := by
  have length : (hashes (chunkSource shortHash base)).length = (chunkSource shortHash base).length := List.length_map ..
  rw [lost,positionsOf_eq_filter,length]
  intro i
  rw [← lost,mem_lost]
  constructor
  · rintro ⟨h, at_, gone⟩
    refine ⟨(List.getElem?_eq_some_iff.mp at_).1, ?_⟩
    by_contra untouched
    rw [Bool.not_eq_true] at untouched
    rcases gone with none | later
    · exact none (List.mem_of_getElem? ((replaces.kept_hash untouched).trans at_))
    · obtain ⟨k, there⟩ := List.mem_iff_getElem?.mp later
      rw [List.getElem?_drop] at there
      have same := (List.getElem?_inj (List.getElem?_eq_some_iff.mp at_).1 distinct).mp (at_.trans there.symm)
      omega
  · rintro ⟨bound, touched⟩
    refine ⟨_, List.getElem?_eq_getElem bound, .inl fun inBranch => ?_⟩
    obtain ⟨k, there⟩ := List.mem_iff_getElem?.mp inBranch
    obtain ⟨untouched, here⟩ := replaces.replaced_hash there (List.getElem_mem bound)
    have same := (List.getElem?_inj bound distinct).mp ((List.getElem?_eq_getElem bound).trans here.symm)
    rw [← same,touched] at untouched
    cases untouched

theorem fresh_eq : fresh (hashes (chunkSource shortHash base)) (hashes (chunkSource shortHash branch)) =
    (List.range (chunkSource shortHash base).length).filter positions := by
  have length : (hashes (chunkSource shortHash branch)).length = (chunkSource shortHash base).length :=
    (List.length_map ..).trans replaces.length
  rw [fresh,positionsOf_eq_filter,length]
  intro j
  rw [← fresh,mem_fresh]
  constructor
  · rintro ⟨h, at_, new⟩
    refine ⟨(List.getElem?_eq_some_iff.mp at_).1, ?_⟩
    by_contra untouched
    rw [Bool.not_eq_true] at untouched
    have here := (replaces.kept_hash untouched).symm.trans at_
    rcases new with none | earlier
    · exact none (List.mem_of_getElem? here)
    · obtain ⟨k, there⟩ := List.mem_iff_getElem?.mp earlier
      have before : k < j := by
        have bound := (List.getElem?_eq_some_iff.mp there).1
        rw [List.length_take] at bound
        omega
      rw [List.getElem?_take_of_lt before] at there
      have same := (List.getElem?_inj (List.getElem?_eq_some_iff.mp here).1 distinct).mp
        (here.trans (replaces.replaced_hash there (List.mem_of_getElem? here)).2.symm)
      omega
  · rintro ⟨bound, touched⟩
    refine ⟨_, List.getElem?_eq_getElem bound, .inl fun inBase => ?_⟩
    have untouched := (replaces.replaced_hash (List.getElem?_eq_getElem bound) inBase).1
    rw [touched] at untouched
    cases untouched

end Replaces

/-! One branch -/

namespace Replaces

variable {base branch : String} {positions : Nat → Bool}
  (replaces : Replaces (chunkSource shortHash base) (chunkSource shortHash branch) positions)
  (distinct : (hashes (chunkSource shortHash base)).Nodup)

include replaces distinct

theorem modified_iff {c d : AstChunk} : .modified c d ∈ AstDiff.diff shortHash base branch ↔
    ∃ i, positions i = true ∧ (chunkSource shortHash base)[i]? = some c ∧ (chunkSource shortHash branch)[i]? = some d := by
  rw [AstDiff.diff,AstDiff.modified_mem,replaces.lost_eq distinct,replaces.fresh_eq distinct,List.zip,List.zipWith_self]
  constructor
  · rintro ⟨i, j, member, here, there⟩
    obtain ⟨k, chosen, same⟩ := List.mem_map.mp member
    obtain ⟨rfl, rfl⟩ := Prod.ext_iff.mp same
    exact ⟨k, (List.mem_filter.mp chosen).2, here, there⟩
  · rintro ⟨i, touched, here, there⟩
    refine ⟨i, i, List.mem_map.mpr ⟨i, List.mem_filter.mpr ⟨List.mem_range.mpr ?_, touched⟩, rfl⟩, here, there⟩
    exact (List.getElem?_eq_some_iff.mp here).1

theorem not_deleted (c : AstChunk) : .deleted c ∉ AstDiff.diff shortHash base branch := by
  rw [AstDiff.diff,AstDiff.deleted_mem,replaces.lost_eq distinct,replaces.fresh_eq distinct,List.drop_length]
  simp

theorem no_additions : (AstDiff.diff shortHash base branch).filterMap AstChange.addition? = [] := by
  rw [AstDiff.diff,AstDiff.additions_diffChunks,replaces.lost_eq distinct,replaces.fresh_eq distinct,List.drop_length]
  rfl

end Replaces

/-! All branches -/

section

variable {base : String} {edits : List Edit}

/-- A decision that modifies is one of an edit at its position. -/
theorem modification_iff (distinct : (hashes (chunkSource shortHash base)).Nodup)
    (replace : ∀ e ∈ edits, Replaces (chunkSource shortHash base) (chunkSource shortHash e.content) e.positions)
    {i : Nat} {c v : AstChunk} (at_ : (chunkSource shortHash base)[i]? = some c) :
    (∃ d ∈ AstMergeResolver.decisionsFor shortHash base (edits.map Edit.branch) c.hash, d.2.modification? = some v) ↔
      ∃ e ∈ edits, e.positions i = true ∧ (chunkSource shortHash e.content)[i]? = some v := by
  rw [AstMergeResolver.modification_mem]
  constructor
  · rintro ⟨branch, inside, c', change, filed⟩
    obtain ⟨e, here, rfl⟩ := List.mem_map.mp inside
    obtain ⟨k, touched, first, second⟩ := ((replace e here).modified_iff distinct).mp change
    have same := mem_hashes first
    rw [filed] at same
    have place := (List.getElem?_inj (List.getElem?_eq_some_iff.mp same).1 distinct).mp (same.trans (mem_hashes at_).symm)
    subst place
    exact ⟨e, here, touched, second⟩
  · rintro ⟨e, here, touched, there⟩
    exact ⟨e.branch, List.mem_map_of_mem here, c, ((replace e here).modified_iff distinct).mpr ⟨i, touched, at_, there⟩, rfl⟩

/-- Edits in different places merge into the base with all of them, whatever their number and order. -/
theorem disjoint_edits_merge (shortHash : String → String) (syntaxCheck : String → String → SyntaxCheckResult)
    (base language : String) (edits : List Edit) (distinct : (hashes (chunkSource shortHash base)).Nodup)
    (replace : ∀ e ∈ edits, Replaces (chunkSource shortHash base) (chunkSource shortHash e.content) e.positions)
    (apart : edits.Pairwise Edit.Apart) :
    (AstMergeResolver.merge shortHash syntaxCheck base (edits.map Edit.branch) language).conflicts = [] ∧
    (AstMergeResolver.merge shortHash syntaxCheck base (edits.map Edit.branch) language).autoResolved =
      (chunkSource shortHash base).length ∧
    (AstMergeResolver.merge shortHash syntaxCheck base (edits.map Edit.branch) language).merged =
      String.join (applied shortHash base edits) := by
  have settled : ∀ c ∈ chunkSource shortHash base,
      AstMergeResolver.Settled (AstMergeResolver.decisionsFor shortHash base (edits.map Edit.branch) c.hash) := by
    intro c member
    obtain ⟨i, at_⟩ := List.mem_iff_getElem?.mp member
    constructor
    · intro d decided
      by_contra deletes
      rw [Bool.not_eq_false] at deletes
      obtain ⟨branch, inside, c', change, _⟩ := AstMergeResolver.deletion_mem.mp ⟨d, decided, deletes⟩
      obtain ⟨e, here, rfl⟩ := List.mem_map.mp inside
      exact (replace e here).not_deleted distinct c' change
    · intro d decided d' decided' v w found found'
      obtain ⟨e, here, touched, there⟩ := (modification_iff distinct replace at_).mp ⟨d, decided, found⟩
      obtain ⟨f, here', touched', there'⟩ := (modification_iff distinct replace at_).mp ⟨d', decided', found'⟩
      by_cases same : e = f
      · rw [same] at there
        rw [Option.some.inj (there.symm.trans there')]
      · exact absurd ⟨touched, touched'⟩ (apart.forall here here' same i)
  have clean : (AstMergeResolver.merge shortHash syntaxCheck base (edits.map Edit.branch) language).conflicts = [] :=
    AstMergeResolver.conflicts_eq_nil.mpr settled
  obtain ⟨texts, outcomes, merged, resolved⟩ := AstMergeResolver.merged_of_settled clean
  refine ⟨clean, resolved, merged.trans (congrArg String.join ?_)⟩
  have additions : (AstMergeResolver.allChanges shortHash base (edits.map Edit.branch)).filterMap
      (fun d => d.2.addition?) = [] := by
    rw [AstMergeResolver.allChanges,List.filterMap_eq_nil_iff]
    intro d member
    obtain ⟨branch, inside, changed⟩ := List.mem_flatMap.mp member
    obtain ⟨e, here, rfl⟩ := List.mem_map.mp inside
    obtain ⟨change, made, rfl⟩ := List.mem_map.mp changed
    exact List.filterMap_eq_nil_iff.mp ((replace e here).no_additions distinct) change made
  rw [additions,AstMergeResolver.dedup,List.append_nil]
  refine List.ext_getElem? fun i => ?_
  rcases Nat.lt_or_ge i (chunkSource shortHash base).length with inside | outside
  swap
  · rw [List.getElem?_eq_none (outcomes.length_eq ▸ outside),List.getElem?_eq_none]
    rw [applied,foldl_applyEdit_length,List.length_map]
    exact outside
  have at_ : (chunkSource shortHash base)[i]? = some (chunkSource shortHash base)[i] := List.getElem?_eq_getElem inside
  have original : ((chunkSource shortHash base).map AstChunk.text)[i]? = some (chunkSource shortHash base)[i].text := by
    rw [List.getElem?_map,at_]
    rfl
  have bound : i < texts.length := outcomes.length_eq ▸ inside
  rw [List.getElem?_eq_getElem bound]
  rcases outcomes.get inside bound with ⟨none, same⟩ | ⟨d, decided, v, found, same⟩
  · have untouched : ∀ e ∈ edits, e.positions i = false := by
      intro e here
      by_contra touched
      rw [Bool.not_eq_false] at touched
      have there := List.getElem?_eq_getElem ((replace e here).length.symm ▸ inside)
      obtain ⟨d, decided, found⟩ := (modification_iff distinct replace at_).mpr ⟨e, here, touched, there⟩
      rw [none d decided] at found
      cases found
    rw [applied,foldl_applyEdit_untouched untouched,original]
    exact congrArg some same
  · obtain ⟨e, here, touched, there⟩ := (modification_iff distinct replace at_).mp ⟨d, decided, found⟩
    rw [applied,foldl_applyEdit_touched apart here touched there (by rw [List.length_map]; exact inside)]
    exact congrArg some same

end

/-- Two of three functions are replaced, each by one branch. -/
def threeFunctions : String := "fn a() {}\nfn b() {}\nfn c() {}\n"

def twoEdits : List Edit := [⟨"x", "fn a() {1}\nfn b() {}\nfn c() {}\n", fun i => i == 0⟩,
  ⟨"y", "fn a() {}\nfn b() {}\nfn c() {2}\n", fun i => i == 2⟩]

theorem three_chunks : chunkSource id threeFunctions =
    [.new id "fn a() {}\n" 0, .new id "fn b() {}\n" 1, .new id "fn c() {}\n" 2] := by decide

theorem twoEdits_replace : ∀ e ∈ twoEdits, Replaces (chunkSource id threeFunctions) (chunkSource id e.content) e.positions := by
  have first : chunkSource id "fn a() {1}\nfn b() {}\nfn c() {}\n" =
    [.new id "fn a() {1}\n" 0, .new id "fn b() {}\n" 1, .new id "fn c() {}\n" 2] := by decide
  have second : chunkSource id "fn a() {}\nfn b() {}\nfn c() {2}\n" =
    [.new id "fn a() {}\n" 0, .new id "fn b() {}\n" 1, .new id "fn c() {2}\n" 2] := by decide
  intro e member
  rw [three_chunks]
  rcases List.mem_cons.mp member with rfl | last
  · simp only [first]
    refine ⟨rfl, fun i kept => ?_, fun i chunk touched there => ?_⟩
    · rcases i with _ | _ | _ | i
      · cases kept
      · rfl
      · rfl
      · rfl
    · obtain rfl : i = 0 := beq_iff_eq.mp touched
      obtain rfl := Option.some.inj there
      decide
  · obtain rfl := List.mem_singleton.mp last
    simp only [second]
    refine ⟨rfl, fun i kept => ?_, fun i chunk touched there => ?_⟩
    · rcases i with _ | _ | _ | i
      · rfl
      · rfl
      · cases kept
      · rfl
    · obtain rfl : i = 2 := beq_iff_eq.mp touched
      obtain rfl := Option.some.inj there
      decide

theorem two_edits_merge : (AstMergeResolver.merge id (fun _ _ => .valid) threeFunctions (twoEdits.map Edit.branch) "rust").conflicts = [] ∧
    (AstMergeResolver.merge id (fun _ _ => .valid) threeFunctions (twoEdits.map Edit.branch) "rust").autoResolved =
      (chunkSource id threeFunctions).length ∧
    (AstMergeResolver.merge id (fun _ _ => .valid) threeFunctions (twoEdits.map Edit.branch) "rust").merged =
      String.join (applied id threeFunctions twoEdits) := by
  refine disjoint_edits_merge id (fun _ _ => .valid) threeFunctions "rust" twoEdits ?_ twoEdits_replace ?_
  · rw [three_chunks]
    decide
  · refine List.pairwise_pair.mpr fun i both => ?_
    have first : i = 0 := beq_iff_eq.mp both.1
    have second : i = 2 := beq_iff_eq.mp both.2
    omega

end Zaion.Aci
