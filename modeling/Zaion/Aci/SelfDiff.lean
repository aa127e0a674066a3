import Mathlib.Data.List.Perm.Basic
import Zaion.Aci.Pairing

/-! What a diff mentions. Every chunk of both sides is in one entry; a source is its own diff, all unchanged,
when no two of its chunks have one hash. -/
namespace Zaion.Aci

variable {base branch chunks : List AstChunk}

/-- The entry is about what stands at its positions. -/
inductive PlacedChange.Stands (base branch : List AstChunk) : PlacedChange → Prop
  | unchanged {i j : Nat} {b c : AstChunk} (there : base[i]? = some b) (here : branch[j]? = some c) (same : b.hash = c.hash) :
      Stands base branch ⟨some i, some j, .unchanged c⟩
  | modified {i j : Nat} {b c : AstChunk} (there : base[i]? = some b) (here : branch[j]? = some c) :
      Stands base branch ⟨some i, some j, .modified b c⟩
  | deleted {i : Nat} {b : AstChunk} (there : base[i]? = some b) : Stands base branch ⟨some i, none, .deleted b⟩
  | added {j : Nat} {c : AstChunk} (here : branch[j]? = some c) : Stands base branch ⟨none, some j, .added c⟩

/-- The entries have positions, and each position of both sides is that of one entry. -/
def MentionsOnce (base branch : List AstChunk) (changes : List AstChange) : Prop :=
  ∃ placed : List PlacedChange, placed.map PlacedChange.change = changes ∧ (∀ x ∈ placed, x.Stands base branch) ∧
    (placed.filterMap PlacedChange.baseIdx).Perm (List.range base.length) ∧
    (placed.filterMap PlacedChange.branchIdx).Perm (List.range branch.length)

namespace AstDiff

/-! Pass 1 -/

theorem identical_stands (member : x ∈ (identical base branch).changes) : x.Stands base branch := by
  induction branch using List.reverseRecOn with
  | nil => cases member
  | append_singleton branch d ih =>
    have earlier {x : PlacedChange} (stands : x.Stands base branch) (kept : ∃ c, x.change = .unchanged c) :
        x.Stands base (branch ++ [d]) := by
      have later {j : Nat} {c : AstChunk} (here : branch[j]? = some c) : (branch ++ [d])[j]? = some c := by
        rw [List.getElem?_append_left (List.getElem?_eq_some_iff.mp here).1]
        exact here
      cases stands with
      | unchanged there here same => exact .unchanged there (later here) same
      | modified there here => exact .modified there (later here)
      | deleted there => exact .deleted there
      | added here => exact .added (later here)
    rw [identical_concat,matchIdentical] at member
    cases found : baseIndex base d.hash with
    | none =>
      rw [found] at member
      exact earlier (ih member) (identical_changes member)
    | some i =>
      rw [found] at member
      dsimp only at member
      split at member
      · exact earlier (ih member) (identical_changes member)
      · rcases List.mem_append.mp member with old | new
        · exact earlier (ih old) (identical_changes old)
        · rw [List.mem_singleton.mp new]
          obtain ⟨there, -⟩ := baseIndex_eq_some.mp found
          rw [hashes,List.getElem?_map] at there
          obtain ⟨b, at_, same⟩ := Option.map_eq_some_iff.mp there
          exact .unchanged at_ (by simp) same

theorem identical_positions : (identical base branch).changes.filterMap PlacedChange.baseIdx = (identical base branch).baseSeen.reverse ∧
    (identical base branch).changes.filterMap PlacedChange.branchIdx = (identical base branch).branchSeen.reverse := by
  induction branch using List.reverseRecOn with
  | nil => exact ⟨rfl, rfl⟩
  | append_singleton branch d ih =>
    rw [identical_concat,matchIdentical]
    split
    · split
      · exact ih
      · simp [ih.1,ih.2]
    · exact ih

theorem identical_nodup : (identical base branch).baseSeen.Nodup ∧ (identical base branch).branchSeen.Nodup := by
  induction branch using List.reverseRecOn with
  | nil => exact ⟨.nil, .nil⟩
  | append_singleton branch d ih =>
    rw [identical_concat,matchIdentical]
    split
    · split
      · exact ih
      · rename_i unseen
        refine ⟨List.nodup_cons.mpr ⟨unseen, ih.1⟩, List.nodup_cons.mpr ⟨fun seen => ?_, ih.2⟩⟩
        obtain ⟨_, _, here, _⟩ := mem_branchSeen.mp seen
        exact absurd (List.getElem?_eq_some_iff.mp here).1 (Nat.lt_irrefl _)
    · exact ih

/-! Passes 2 and 3 -/

theorem pairUp_positions (entries others : List (AstChunk × Nat)) :
    (pairUp entries others).filterMap PlacedChange.baseIdx = entries.map Prod.snd ∧
      (pairUp entries others).filterMap PlacedChange.branchIdx = others.map Prod.snd := by
  induction entries generalizing others with
  | nil => induction others with
    | nil => exact ⟨rfl, rfl⟩
    | cons other others ih => simp_all [pairUp]
  | cons entry rest ih =>
    cases others with
    | nil => simp [pairUp,ih]
    | cons other others => simp [pairUp,ih]

theorem pairUp_stands {entries others : List (AstChunk × Nat)} (theirs : ∀ e ∈ entries, base[e.2]? = some e.1)
    (ours : ∀ e ∈ others, branch[e.2]? = some e.1) {x : PlacedChange} (member : x ∈ pairUp entries others) :
    x.Stands base branch := by
  induction entries generalizing others with
  | nil =>
    rw [pairUp,List.mem_map] at member
    obtain ⟨other, inside, rfl⟩ := member
    exact .added (ours _ inside)
  | cons entry rest ih =>
    obtain ⟨first, later⟩ := List.forall_mem_cons.mp theirs
    cases others with
    | nil =>
      rw [pairUp,List.mem_cons] at member
      rcases member with rfl | member
      · exact .deleted first
      · exact ih later ours member
    | cons other others =>
      obtain ⟨mine, further⟩ := List.forall_mem_cons.mp ours
      rw [pairUp,List.mem_cons] at member
      rcases member with rfl | member
      · exact .modified first mine
      · exact ih later further member

theorem zipIdx_stands {entries : List (AstChunk × Nat)} (part : entries.Sublist chunks.zipIdx) :
    ∀ e ∈ entries, chunks[e.2]? = some e.1 := fun _ member =>
  List.mem_zipIdx_iff_getElem?.mp (part.subset member)

/-- Seen positions and those that are not make up all of them. -/
theorem seen_perm {seen : List Nat} {n : Nat} (distinct : seen.Nodup) (inside : ∀ i ∈ seen, i < n) :
    (seen.reverse ++ (List.range n).filter fun i => decide (i ∉ seen)).Perm (List.range n) := by
  refine (List.perm_ext_iff_of_nodup ?_ List.nodup_range).mpr fun i => ?_
  · refine List.nodup_append'.mpr ⟨List.nodup_reverse.mpr distinct, List.nodup_range.filter _, ?_⟩
    intro i first second
    simp at first second
    exact second.2 first
  · simp only [List.mem_append,List.mem_reverse,List.mem_filter,List.mem_range,decide_eq_true_eq]
    constructor
    · rintro (member | ⟨bound, -⟩)
      · exact inside i member
      · exact bound
    · intro bound
      exact (Decidable.em (i ∈ seen)).imp id fun unseen => ⟨bound, unseen⟩

/-- Every chunk of both sides is mentioned in one entry. -/
theorem diffChunks_mentions (base branch : List AstChunk) : MentionsOnce base branch (diffChunks base branch) := by
  have sorted := List.mergeSort_perm (passes base branch).changes keyLe
  refine ⟨_, rfl, fun x member => ?_, (sorted.filterMap _).trans ?_, (sorted.filterMap _).trans ?_⟩
  · rw [sorted.mem_iff,passes_changes,List.mem_append] at member
    rcases member with first | left
    · exact identical_stands first
    · exact pairUp_stands (zipIdx_stands List.filter_sublist) (zipIdx_stands List.filter_sublist) left
  · rw [passes_changes,List.filterMap_append,identical_positions.1,(pairUp_positions _ _).1,lostEntries,
      filter_zipIdx_snd base fun i => decide (i ∉ (identical base branch).baseSeen)]
    refine seen_perm identical_nodup.1 fun i seen => ?_
    obtain ⟨d, -, found⟩ := mem_baseSeen.mp seen
    simpa [hashes] using (List.getElem?_eq_some_iff.mp (baseIndex_eq_some.mp found).1).1
  · rw [passes_changes,List.filterMap_append,identical_positions.2,(pairUp_positions _ _).2,freshEntries,
      filter_zipIdx_snd branch fun i => decide (i ∉ (identical base branch).branchSeen)]
    refine seen_perm identical_nodup.2 fun i seen => ?_
    obtain ⟨d, -, here, -⟩ := mem_branchSeen.mp seen
    exact (List.getElem?_eq_some_iff.mp here).1

/-! A source and itself -/

theorem not_mem_drop {hs : List String} (distinct : hs.Nodup) {i : Nat} {h : String} (here : hs[i]? = some h) :
    h ∉ hs.drop (i + 1) := by
  intro later
  obtain ⟨k, again⟩ := List.mem_iff_getElem?.mp later
  rw [List.getElem?_drop] at again
  have same := List.getElem?_inj (List.getElem?_eq_some_iff.mp here).1 distinct |>.mp (here.trans again.symm)
  omega

theorem not_mem_take {hs : List String} (distinct : hs.Nodup) {i : Nat} {h : String} (here : hs[i]? = some h) :
    h ∉ hs.take i := by
  intro earlier
  obtain ⟨k, again⟩ := List.mem_iff_getElem?.mp earlier
  have below : k < i := (List.getElem?_eq_some_iff.mp again).1.trans_le (List.length_take_le _ _)
  rw [List.getElem?_take_of_lt below] at again
  have same := List.getElem?_inj (List.getElem?_eq_some_iff.mp here).1 distinct |>.mp (here.trans again.symm)
  omega

theorem hash_at {i : Nat} {c : AstChunk} (here : chunks[i]? = some c) : (hashes chunks)[i]? = some c.hash := by
  rw [hashes,List.getElem?_map,here]
  rfl

theorem baseIndex_self (distinct : (hashes chunks).Nodup) {i : Nat} {c : AstChunk} (here : chunks[i]? = some c) :
    baseIndex chunks c.hash = some i :=
  baseIndex_eq_some.mpr ⟨hash_at here, not_mem_drop distinct (hash_at here)⟩

/-- Pass 1 over the first chunks of a source without repetitions. -/
theorem identical_self (distinct : (hashes chunks).Nodup) (front : branch <+: chunks) : (identical chunks branch).changes =
    branch.zipIdx.map fun e => ⟨some e.2, some e.2, .unchanged e.1⟩ := by
  induction branch using List.reverseRecOn with
  | nil => rfl
  | append_singleton branch d ih =>
    have before := ih ((List.prefix_append _ _).trans front)
    have here : chunks[branch.length]? = some d := by
      obtain ⟨rest, rfl⟩ := front
      simp
    have found := baseIndex_self distinct here
    have unseen : branch.length ∉ (identical chunks branch).baseSeen := by
      intro seen
      obtain ⟨e, member, again⟩ := mem_baseSeen.mp seen
      obtain ⟨k, at_⟩ := List.mem_iff_getElem?.mp member
      have early := (List.getElem?_eq_some_iff.mp at_).1
      have own := baseIndex_self distinct (i := k) (c := e) (by
        obtain ⟨rest, rfl⟩ := front
        rw [List.append_assoc,List.getElem?_append_left early,at_])
      rw [own,Option.some.injEq] at again
      omega
    rw [identical_concat,matchIdentical,found,List.zipIdx_append]
    simp [unseen,before]

theorem keyLe_zipIdx (chunks : List AstChunk) :
    (chunks.zipIdx.map fun e => (⟨some e.2, some e.2, .unchanged e.1⟩ : PlacedChange)).Pairwise fun a b => keyLe a b = true := by
  have rising : (chunks.zipIdx.map Prod.snd).Pairwise (· < ·) := by
    rw [List.zipIdx_map_snd]
    exact List.pairwise_lt_range'
  refine List.pairwise_map.mpr ((List.pairwise_map.mp rising).imp fun {a b} below => ?_)
  simp only [keyLe,positionLe,Option.some.injEq]
  rw [if_neg (by omega),decide_eq_true (Nat.le_of_lt below)]

theorem lost_self_iff : lost (hashes chunks) (hashes chunks) = [] ↔ (hashes chunks).Nodup := by
  rw [List.eq_nil_iff_forall_not_mem]
  simp only [mem_lost,not_exists,not_and,not_or,not_not]
  constructor
  · intro none
    rw [List.nodup_iff_getElem?_ne_getElem?]
    intro i j below inside same
    have bound : i < (hashes chunks).length := below.trans inside
    have here := List.getElem?_eq_getElem bound
    refine (none i _ here).2 (List.mem_iff_getElem?.mpr ⟨j - (i + 1), ?_⟩)
    rw [List.getElem?_drop,Nat.add_sub_cancel' (by omega),← same,here]
  · intro distinct i h here
    exact ⟨List.mem_of_getElem? here, not_mem_drop distinct here⟩

theorem fresh_self (distinct : (hashes chunks).Nodup) : fresh (hashes chunks) (hashes chunks) = [] := by
  rw [List.eq_nil_iff_forall_not_mem]
  intro j member
  obtain ⟨h, here, new⟩ := mem_fresh.mp member
  rcases new with none | earlier
  · exact none (List.mem_of_getElem? here)
  · exact not_mem_take distinct here earlier

theorem diffChunks_self (distinct : (hashes chunks).Nodup) : diffChunks chunks chunks = chunks.map .unchanged := by
  have lostNone : lostEntries chunks chunks = [] := by
    rw [← List.map_eq_nil_iff (f := Prod.snd),lostEntries_snd,lost_self_iff.mpr distinct]
  have freshNone : freshEntries chunks chunks = [] := by
    rw [← List.map_eq_nil_iff (f := Prod.snd),freshEntries_snd,fresh_self distinct]
  rw [diffChunks,passes_changes,lostNone,freshNone,pairUp,List.map_nil,List.append_nil,
    identical_self distinct List.prefix_rfl,List.mergeSort_of_pairwise (keyLe_zipIdx chunks),List.map_map]
  have unplaced : chunks.map AstChange.unchanged = (chunks.zipIdx.map Prod.fst).map .unchanged := by rw [List.zipIdx_map_fst]
  rw [unplaced,List.map_map]
  rfl

/-- A lost chunk is in an entry that is not an unchanged one. -/
theorem changed_of_lost (gone : lostEntries base branch ≠ []) : ∃ change ∈ diffChunks base branch, ∀ c, change ≠ .unchanged c := by
  have listed {x : PlacedChange} (member : x ∈ pairUp (lostEntries base branch) (freshEntries base branch)) :
      x.change ∈ diffChunks base branch := by
    refine List.mem_map_of_mem ((List.mergeSort_perm _ _).mem_iff.mpr ?_)
    rw [passes_changes]
    exact List.mem_append_right _ member
  obtain ⟨entry, rest, lostSome⟩ := List.exists_cons_of_ne_nil gone
  cases freshSome : freshEntries base branch with
  | nil => exact ⟨_, listed (by rw [lostSome,freshSome,pairUp]; exact List.mem_cons_self), by simp⟩
  | cons other others => exact ⟨_, listed (by rw [lostSome,freshSome,pairUp]; exact List.mem_cons_self), by simp⟩

theorem diffChunks_self_iff : diffChunks chunks chunks = chunks.map .unchanged ↔ (hashes chunks).Nodup := by
  refine ⟨fun same => ?_, diffChunks_self⟩
  by_contra repeated
  have gone : lostEntries chunks chunks ≠ [] := by
    intro none
    rw [← lost_self_iff,← lostEntries_snd,none] at repeated
    exact repeated rfl
  obtain ⟨change, member, changed⟩ := changed_of_lost gone
  rw [same,List.mem_map] at member
  obtain ⟨c, -, rfl⟩ := member
  exact changed c rfl

/-- A source is its own diff exactly when no two of its chunks have one hash; a diff mentions every chunk once. -/
theorem diff_exact (shortHash : String → String) (src base branch : String) :
    (diff shortHash src src = (chunkSource shortHash src).map .unchanged ∧
        MentionsOnce (chunkSource shortHash base) (chunkSource shortHash branch) (diff shortHash base branch)) ↔
      (hashes (chunkSource shortHash src)).Nodup :=
  ⟨fun both => diffChunks_self_iff.mp both.1, fun distinct => ⟨diffChunks_self distinct, diffChunks_mentions _ _⟩⟩

/-- Two equal lines are two chunks with one hash. -/
theorem repeated_line : chunkSource id "use a;\nuse a;\n" = [⟨"use a;\n", "use a;\n", 0⟩, ⟨"use a;\n", "use a;\n", 1⟩] ∧
    diff id "use a;\nuse a;\n" "use a;\nuse a;\n" ≠ (chunkSource id "use a;\nuse a;\n").map .unchanged := by
  refine ⟨by decide, fun same => ?_⟩
  have distinct := diffChunks_self_iff.mp same
  revert distinct
  decide

end AstDiff

end Zaion.Aci
