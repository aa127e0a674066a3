import Zaion.Aci.Merge
import Mathlib.Data.List.Basic
import Mathlib.Data.List.Induction

/-! What the three passes of `AstDiff::diff` come to. The first copy of a chunk in the branch keeps the last
one in the base; the chunks of the base that are lost so are paired in order with those of the branch that
are fresh; what is over was deleted or added. -/
namespace Zaion.Aci

variable {base branch : List AstChunk}

def hashes (chunks : List AstChunk) : List String := chunks.map AstChunk.hash

/-- Positions in a list of what is chosen by position and value. -/
def positionsOf (chosen : Nat → String → Bool) (xs : List String) : List Nat :=
  (List.range xs.length).filter fun i => xs[i]?.any (chosen i)

/-- What the branch has not, and all copies but the last. -/
def lost (base branch : List String) : List Nat :=
  positionsOf (fun i h => decide (h ∉ branch ∨ h ∈ base.drop (i + 1))) base

/-- What the base has not, and all copies but the first. -/
def fresh (base branch : List String) : List Nat :=
  positionsOf (fun j h => decide (h ∉ base ∨ h ∈ branch.take j)) branch

theorem mem_positionsOf {chosen : Nat → String → Bool} {xs : List String} {i : Nat} :
    i ∈ positionsOf chosen xs ↔ ∃ h, xs[i]? = some h ∧ chosen i h = true := by
  rw [positionsOf,List.mem_filter,List.mem_range]
  cases at_ : xs[i]? with
  | none => simp
  | some h =>
    have bound := (List.getElem?_eq_some_iff.mp at_).1
    simp [bound]

theorem positionsOf_eq_filter {chosen : Nat → String → Bool} {xs : List String} {p : Nat → Bool}
    (same : ∀ i, i ∈ positionsOf chosen xs ↔ i < xs.length ∧ p i = true) : positionsOf chosen xs = (List.range xs.length).filter p := by
  refine List.filter_congr fun i member => ?_
  have bound := List.mem_range.mp member
  have here := same i
  rw [positionsOf,List.mem_filter] at here
  rw [Bool.eq_iff_iff]
  exact ⟨fun holds => (here.mp ⟨member, holds⟩).2, fun holds => (here.mpr ⟨bound, holds⟩).2⟩

theorem mem_lost {base branch : List String} {i : Nat} :
    i ∈ lost base branch ↔ ∃ h, base[i]? = some h ∧ (h ∉ branch ∨ h ∈ base.drop (i + 1)) := by
  simp only [lost,mem_positionsOf,decide_eq_true_eq]

theorem mem_fresh {base branch : List String} {j : Nat} :
    j ∈ fresh base branch ↔ ∃ h, branch[j]? = some h ∧ (h ∉ base ∨ h ∈ branch.take j) := by
  simp only [fresh,mem_positionsOf,decide_eq_true_eq]

namespace AstDiff

/-! Pass 1 -/

theorem baseIndex_concat (c : AstChunk) (h : String) :
    baseIndex (base ++ [c]) h = if c.hash = h then some base.length else baseIndex base h := by
  unfold baseIndex
  rw [List.zipIdx_append,List.reverse_append]
  simp only [List.zipIdx_cons,List.zipIdx_nil,List.reverse_cons,List.reverse_nil,List.nil_append,List.cons_append,
    List.find?_cons,Nat.zero_add]
  by_cases same : c.hash = h
  · rw [decide_eq_true same,if_pos same]
    rfl
  · rw [decide_eq_false same,if_neg same]

/-- The map holds the last position of a hash. -/
theorem baseIndex_eq_some {h : String} {i : Nat} :
    baseIndex base h = some i ↔ (hashes base)[i]? = some h ∧ h ∉ (hashes base).drop (i + 1) := by
  induction base using List.reverseRecOn with
  | nil => simp [baseIndex,hashes]
  | append_singleton base c ih =>
    have length : (hashes base).length = base.length := List.length_map ..
    rw [baseIndex_concat,hashes,List.map_append,← hashes]
    simp only [List.map_cons,List.map_nil]
    rcases Nat.lt_trichotomy i base.length with before | rfl | behind
    · rw [List.getElem?_append_left (by omega),List.drop_append_of_le_length (by omega)]
      simp only [List.mem_append,List.mem_singleton,not_or]
      split
      · rename_i same
        constructor
        · intro last
          cases last
          omega
        · rintro ⟨_, _, other⟩
          exact absurd same.symm other
      · rename_i other
        rw [ih]
        exact ⟨fun ⟨at_, last⟩ => ⟨at_, last, fun same => other same.symm⟩, fun ⟨at_, last, _⟩ => ⟨at_, last⟩⟩
    · rw [List.getElem?_append_right (by omega),length,Nat.sub_self,List.drop_eq_nil_of_le (by simp [length])]
      simp only [List.getElem?_cons_zero,Option.some.injEq,List.not_mem_nil,not_false_eq_true,and_true]
      split
      · rename_i same
        exact ⟨fun _ => same, fun _ => rfl⟩
      · rename_i other
        refine ⟨fun inside => ?_, fun same => absurd same other⟩
        have bound := (List.getElem?_eq_some_iff.mp (ih.mp inside).1).1
        omega
    · rw [List.getElem?_eq_none (by simp [length]; omega)]
      constructor
      · intro inside
        split at inside
        · cases inside
          omega
        · have bound := (List.getElem?_eq_some_iff.mp (ih.mp inside).1).1
          omega
      · rintro ⟨none, _⟩
        cases none

theorem baseIndex_of_mem {h : String} (member : h ∈ hashes base) : ∃ i, baseIndex base h = some i := by
  induction base using List.reverseRecOn with
  | nil => cases member
  | append_singleton base c ih =>
    rw [baseIndex_concat]
    split
    · exact ⟨_, rfl⟩
    · rename_i other
      rw [hashes,List.map_append,List.mem_append] at member
      exact ih (member.resolve_right fun last => other (List.mem_singleton.mp last).symm)

/-- Pass 1 as a whole. -/
def identical (base branch : List AstChunk) : DiffState := branch.zipIdx.foldl (matchIdentical base) ⟨[], [], []⟩

theorem identical_concat (d : AstChunk) :
    identical base (branch ++ [d]) = matchIdentical base (identical base branch) (d, branch.length) := by
  simp [identical,List.zipIdx_append,List.foldl_append]

theorem mem_baseSeen {i : Nat} :
    i ∈ (identical base branch).baseSeen ↔ ∃ d ∈ branch, baseIndex base d.hash = some i := by
  induction branch using List.reverseRecOn with
  | nil => simp [identical]
  | append_singleton branch d ih =>
    have seen : i ∈ (identical base (branch ++ [d])).baseSeen ↔
        i ∈ (identical base branch).baseSeen ∨ baseIndex base d.hash = some i := by
      rw [identical_concat,matchIdentical]
      cases found : baseIndex base d.hash with
      | none => simp
      | some k =>
        simp only [Option.some.injEq]
        split
        · rename_i already
          exact ⟨.inl, fun either => either.elim id fun same => same ▸ already⟩
        · rw [List.mem_cons]
          exact ⟨fun either => either.symm.imp id Eq.symm, fun either => either.symm.imp Eq.symm id⟩
    rw [seen,ih]
    simp only [List.mem_append,List.mem_singleton,or_and_right,exists_or,exists_eq_left]

theorem mem_branchSeen {j : Nat} : j ∈ (identical base branch).branchSeen ↔
    ∃ d i, branch[j]? = some d ∧ baseIndex base d.hash = some i ∧ ∀ e ∈ branch.take j, baseIndex base e.hash ≠ some i := by
  induction branch using List.reverseRecOn with
  | nil => simp [identical]
  | append_singleton branch d ih =>
    have seen : j ∈ (identical base (branch ++ [d])).branchSeen ↔ j ∈ (identical base branch).branchSeen ∨
        j = branch.length ∧ ∃ i, baseIndex base d.hash = some i ∧ ∀ e ∈ branch, baseIndex base e.hash ≠ some i := by
      rw [identical_concat,matchIdentical]
      cases found : baseIndex base d.hash with
      | none => simp
      | some k =>
        simp only [Option.some.injEq,exists_eq_left']
        split
        · rename_i already
          obtain ⟨e, member, same⟩ := mem_baseSeen.mp already
          exact ⟨.inl, fun either => either.elim id fun here => absurd same (here.2 e member)⟩
        · rename_i new
          have none : ∀ e ∈ branch, baseIndex base e.hash ≠ some k := fun e member same =>
            new (mem_baseSeen.mpr ⟨e, member, same⟩)
          rw [List.mem_cons]
          exact ⟨fun either => either.symm.imp id fun here => ⟨here, none⟩, fun either => either.symm.imp And.left id⟩
    rw [seen,ih]
    rcases Nat.lt_trichotomy j branch.length with before | rfl | behind
    · rw [List.getElem?_append_left before,List.take_append_of_le_length (by omega)]
      exact ⟨fun either => either.elim id fun here => absurd here.1 (by omega), .inl⟩
    · rw [List.getElem?_concat_length,List.take_left,List.getElem?_eq_none (Nat.le_refl _)]
      constructor
      · rintro (⟨_, _, none, _⟩ | ⟨_, i, found, first⟩)
        · cases none
        · exact ⟨d, i, rfl, found, first⟩
      · rintro ⟨_, i, same, found, first⟩
        obtain rfl := Option.some.inj same
        exact .inr ⟨rfl, i, found, first⟩
    · rw [List.getElem?_eq_none (Nat.le_of_lt behind),List.getElem?_eq_none (by rw [List.length_append]; exact behind)]
      constructor
      · rintro (⟨_, _, none, _⟩ | ⟨same, _⟩)
        · cases none
        · omega
      · rintro ⟨_, _, none, _⟩
        cases none

theorem identical_changes {x : PlacedChange} (member : x ∈ (identical base branch).changes) : ∃ d, x.change = .unchanged d := by
  induction branch using List.reverseRecOn with
  | nil => cases member
  | append_singleton branch d ih =>
    rw [identical_concat,matchIdentical] at member
    split at member
    · split at member
      · exact ih member
      · rcases List.mem_append.mp member with earlier | here
        · exact ih earlier
        · exact ⟨d, by rw [List.mem_singleton.mp here]⟩
    · exact ih member

theorem mem_lost_iff {i : Nat} : i ∈ lost (hashes base) (hashes branch) ↔
    i < base.length ∧ i ∉ (identical base branch).baseSeen := by
  rw [mem_lost,mem_baseSeen]
  constructor
  · rintro ⟨h, at_, gone⟩
    refine ⟨by simpa [hashes] using (List.getElem?_eq_some_iff.mp at_).1, ?_⟩
    rintro ⟨d, member, found⟩
    obtain ⟨same, last⟩ := baseIndex_eq_some.mp found
    rw [at_,Option.some.injEq] at same
    subst same
    exact gone.elim (fun none => none (List.mem_map_of_mem member)) last
  · rintro ⟨bound, unseen⟩
    have at_ : (hashes base)[i]? = some base[i].hash := by rw [hashes,List.getElem?_map,List.getElem?_eq_getElem bound]; rfl
    refine ⟨_, at_, ?_⟩
    by_contra kept
    obtain ⟨there, last⟩ := not_or.mp kept
    obtain ⟨d, member, same⟩ := List.mem_map.mp (not_not.mp there)
    exact unseen ⟨d, member, baseIndex_eq_some.mpr ⟨same ▸ at_, same ▸ last⟩⟩

theorem mem_fresh_iff {j : Nat} : j ∈ fresh (hashes base) (hashes branch) ↔
    j < branch.length ∧ j ∉ (identical base branch).branchSeen := by
  rw [mem_fresh,mem_branchSeen]
  constructor
  · rintro ⟨h, at_, new⟩
    refine ⟨by simpa [hashes] using (List.getElem?_eq_some_iff.mp at_).1, ?_⟩
    rintro ⟨d, i, at_', found, first⟩
    rw [hashes,List.getElem?_map,at_',Option.map_some,Option.some.injEq] at at_
    subst at_
    obtain ⟨same, _⟩ := baseIndex_eq_some.mp found
    rcases new with none | earlier
    · exact none (List.mem_of_getElem? same)
    · rw [hashes,← List.map_take] at earlier
      obtain ⟨e, member, copy⟩ := List.mem_map.mp earlier
      exact first e member (copy ▸ found)
  · rintro ⟨bound, unseen⟩
    have at_ : branch[j]? = some branch[j] := List.getElem?_eq_getElem bound
    refine ⟨_, by rw [hashes,List.getElem?_map,at_]; rfl, ?_⟩
    by_contra kept
    obtain ⟨there, first⟩ := not_or.mp kept
    obtain ⟨i, found⟩ := baseIndex_of_mem (not_not.mp there)
    refine unseen ⟨_, i, at_, found, fun e member same => first ?_⟩
    have copy := (baseIndex_eq_some.mp same).1
    rw [(baseIndex_eq_some.mp found).1,Option.some.injEq] at copy
    rw [hashes,← List.map_take,copy]
    exact List.mem_map_of_mem member

/-- Entries that are chosen by position. -/
theorem filter_zipIdx_snd (chunks : List AstChunk) (p : Nat → Bool) :
    (chunks.zipIdx.filter fun e => p e.2).map Prod.snd = (List.range chunks.length).filter p := by
  rw [List.range_eq_range',← List.zipIdx_map_snd 0 chunks,List.filter_map]
  rfl

def lostEntries (base branch : List AstChunk) : List (AstChunk × Nat) :=
  base.zipIdx.filter fun e => decide (e.2 ∉ (identical base branch).baseSeen)

def freshEntries (base branch : List AstChunk) : List (AstChunk × Nat) :=
  branch.zipIdx.filter fun e => decide (e.2 ∉ (identical base branch).branchSeen)

theorem lostEntries_snd : (lostEntries base branch).map Prod.snd = lost (hashes base) (hashes branch) := by
  rw [lostEntries,filter_zipIdx_snd base fun i => decide (i ∉ (identical base branch).baseSeen),lost,positionsOf_eq_filter]
  · rw [hashes,List.length_map]
  · intro i
    rw [← lost,mem_lost_iff,hashes,List.length_map,decide_eq_true_eq]

theorem freshEntries_snd : (freshEntries base branch).map Prod.snd = fresh (hashes base) (hashes branch) := by
  rw [freshEntries,filter_zipIdx_snd branch fun j => decide (j ∉ (identical base branch).branchSeen),fresh,positionsOf_eq_filter]
  · rw [hashes,List.length_map]
  · intro j
    rw [← fresh,mem_fresh_iff,hashes,List.length_map,decide_eq_true_eq]

/-! Passes 2 and 3 -/

/-- What is left on both sides, in order. -/
def pairUp : List (AstChunk × Nat) → List (AstChunk × Nat) → List PlacedChange
  | [], others => others.map fun other => ⟨none, some other.2, .added other.1⟩
  | entry :: rest, other :: others => ⟨some entry.2, some other.2, .modified entry.1 other.1⟩ :: pairUp rest others
  | entry :: rest, [] => ⟨some entry.2, none, .deleted entry.1⟩ :: pairUp rest []

theorem matchNew_foldl (entries : List (AstChunk × Nat)) (state : DiffState) : (entries.foldl matchNew state).changes =
    state.changes ++ pairUp [] (entries.filter fun e => decide (e.2 ∉ state.branchSeen)) := by
  induction entries generalizing state with
  | nil => simp [pairUp]
  | cons entry rest ih =>
    rw [List.foldl_cons,ih,matchNew]
    by_cases seen : entry.2 ∈ state.branchSeen
    · rw [if_pos seen,List.filter_cons_of_neg (by simp [seen])]
    · rw [if_neg seen,List.filter_cons_of_pos (by simp [seen])]
      simp [pairUp]

/-- Of entries with different positions, the first that is not seen leaves the others. -/
theorem filter_unseen_tail {entries : List (AstChunk × Nat)} (distinct : (entries.map Prod.snd).Nodup) {seen : List Nat}
    {other : AstChunk × Nat} {others : List (AstChunk × Nat)}
    (unseen : (entries.filter fun e => decide (e.2 ∉ seen)) = other :: others) :
    (entries.filter fun e => decide (e.2 ∉ other.2 :: seen)) = others := by
  have both : (entries.filter fun e => decide (e.2 ∉ other.2 :: seen)) =
      (entries.filter fun e => decide (e.2 ∉ seen)).filter fun e => decide (e.2 ≠ other.2) := by
    rw [List.filter_filter]
    refine List.filter_congr fun e _ => ?_
    simp only [List.mem_cons,not_or,Bool.decide_and]
  have apart := distinct.sublist (List.Sublist.map Prod.snd
    (List.filter_sublist (l := entries) (p := fun e => decide (e.2 ∉ seen))))
  rw [unseen,List.map_cons,List.nodup_cons] at apart
  rw [both,unseen,List.filter_cons_of_neg (by simp),List.filter_eq_self]
  intro e member
  exact decide_eq_true fun same => apart.1 (same ▸ List.mem_map_of_mem member)

theorem matchLeft_foldl (entries : List (AstChunk × Nat)) (state : DiffState) :
    (branch.zipIdx.foldl matchNew (entries.foldl (matchLeft branch) state)).changes =
      state.changes ++ pairUp (entries.filter fun e => decide (e.2 ∉ state.baseSeen))
        (branch.zipIdx.filter fun e => decide (e.2 ∉ state.branchSeen)) := by
  induction entries generalizing state with
  | nil => rw [List.foldl_nil,matchNew_foldl,List.filter_nil]
  | cons entry rest ih =>
    rw [List.foldl_cons,ih,matchLeft]
    by_cases seen : entry.2 ∈ state.baseSeen
    · rw [if_pos seen,List.filter_cons_of_neg (by simp [seen])]
    · rw [if_neg seen,List.filter_cons_of_pos (by simp [seen]),← List.head?_filter]
      have distinct : (branch.zipIdx.map Prod.snd).Nodup := by
        rw [List.zipIdx_map_snd]
        exact List.nodup_range'
      cases unseen : branch.zipIdx.filter fun e => decide (e.2 ∉ state.branchSeen) with
      | nil =>
        simp only [List.head?_nil,pairUp,List.append_assoc,List.singleton_append]
        exact congrArg (fun left => state.changes ++ ⟨some entry.2, none, .deleted entry.1⟩ :: pairUp _ left) unseen
      | cons other others =>
        simp only [List.head?_cons,pairUp,List.append_assoc,List.singleton_append]
        exact congrArg (fun left => state.changes ++ ⟨some entry.2, some other.2, .modified entry.1 other.1⟩ :: pairUp _ left)
          (filter_unseen_tail distinct unseen)

/-- All three passes. -/
theorem passes_changes : (passes base branch).changes =
    (identical base branch).changes ++ pairUp (lostEntries base branch) (freshEntries base branch) :=
  matchLeft_foldl _ _

/-! The outcome, whatever the order of the changes -/

theorem modified_mem_pairUp {entries others : List (AstChunk × Nat)} {c d : AstChunk} :
    .modified c d ∈ (pairUp entries others).map PlacedChange.change ↔ ∃ i j, ((c, i), (d, j)) ∈ entries.zip others := by
  induction entries generalizing others with
  | nil => simp [pairUp]
  | cons entry rest ih =>
    cases others with
    | nil =>
      have none := @ih []
      simp only [List.zip_nil_right,List.not_mem_nil,exists_false,iff_false] at none
      simp [pairUp,none]
    | cons other others =>
      rw [pairUp,List.map_cons,List.mem_cons,ih,List.zip_cons_cons]
      simp only [AstChange.modified.injEq,List.mem_cons,Prod.ext_iff,exists_or]
      refine or_congr_left ⟨fun same => ⟨_, _, ⟨same.1, rfl⟩, same.2, rfl⟩, fun ⟨_, _, first, second⟩ => ⟨first.1, second.1⟩⟩

theorem deleted_mem_pairUp {entries others : List (AstChunk × Nat)} {c : AstChunk} :
    .deleted c ∈ (pairUp entries others).map PlacedChange.change ↔ ∃ i, (c, i) ∈ entries.drop others.length := by
  induction entries generalizing others with
  | nil => simp [pairUp]
  | cons entry rest ih =>
    cases others with
    | nil =>
      rw [pairUp,List.map_cons,List.mem_cons,ih,List.length_nil,List.drop_zero,List.drop_zero]
      simp only [AstChange.deleted.injEq,List.mem_cons,Prod.ext_iff,exists_or]
      refine or_congr_left ⟨fun same => ⟨_, same, rfl⟩, fun ⟨_, first, _⟩ => first⟩
    | cons other others => simp [pairUp,ih]

theorem additions_pairUp (entries others : List (AstChunk × Nat)) :
    (pairUp entries others).filterMap (fun x => x.change.addition?) = (others.drop entries.length).map Prod.fst := by
  induction entries generalizing others with
  | nil =>
    rw [pairUp,List.filterMap_map,List.length_nil,List.drop_zero]
    exact congrFun (List.filterMap_eq_map (f := Prod.fst)) others
  | cons entry rest ih =>
    cases others with
    | nil =>
      rw [pairUp,List.filterMap_cons_none rfl,ih]
      simp
    | cons other others =>
      rw [pairUp,List.filterMap_cons_none rfl,ih]
      rfl

theorem identical_additions : (identical base branch).changes.filterMap (fun x => x.change.addition?) = [] := by
  rw [List.filterMap_eq_nil_iff]
  intro x member
  obtain ⟨d, same⟩ := identical_changes member
  rw [same]
  rfl

theorem positionLe_trans {a b c : Option Nat} (first : positionLe a b = true) (second : positionLe b c = true) :
    positionLe a c = true := by
  cases a <;> cases b <;> cases c <;> simp_all [positionLe]
  omega

theorem positionLe_total (a b : Option Nat) : positionLe a b = true ∨ positionLe b a = true := by
  cases a <;> cases b <;> simp [positionLe]
  omega

theorem positionLe_antisymm {a b : Option Nat} (first : positionLe a b = true) (second : positionLe b a = true) : a = b := by
  cases a <;> cases b <;> simp_all [positionLe]
  omega

theorem keyLe_trans (a b c : PlacedChange) (first : keyLe a b = true) (second : keyLe b c = true) : keyLe a c = true := by
  unfold keyLe at *
  by_cases ab : a.baseIdx = b.baseIdx <;> by_cases bc : b.baseIdx = c.baseIdx
  · rw [if_pos ab] at first
    rw [if_pos bc] at second
    rw [if_pos (ab.trans bc)]
    exact positionLe_trans first second
  · rw [if_neg bc] at second
    rw [ab,if_neg bc]
    exact second
  · rw [if_neg ab] at first
    rw [← bc,if_neg ab]
    exact first
  · rw [if_neg ab] at first
    rw [if_neg bc] at second
    have apart : a.baseIdx ≠ c.baseIdx := fun same => ab (positionLe_antisymm first (same ▸ second))
    rw [if_neg apart]
    exact positionLe_trans first second

theorem keyLe_total (a b : PlacedChange) : (keyLe a b || keyLe b a) = true := by
  unfold keyLe
  rw [Bool.or_eq_true]
  by_cases same : a.baseIdx = b.baseIdx
  · rw [if_pos same,if_pos same.symm]
    exact positionLe_total _ _
  · rw [if_neg same,if_neg (Ne.symm same)]
    exact positionLe_total _ _

/-- The sort leaves the additions in the order of the branch. -/
theorem additions_sort {changes : List PlacedChange} {others : List (AstChunk × Nat)}
    (rising : others.Pairwise fun a b => a.2 ≤ b.2) (none : changes.filterMap (fun x => x.change.addition?) = []) :
    ((changes ++ pairUp [] others).mergeSort keyLe).filterMap (fun x => x.change.addition?) = others.map Prod.fst := by
  have sorted : (pairUp [] others).Pairwise fun a b => keyLe a b = true := by
    rw [pairUp,List.pairwise_map]
    exact rising.imp fun order => decide_eq_true order
  have kept := (List.sublist_mergeSort keyLe_trans keyLe_total sorted (List.sublist_append_right changes _)).filterMap
    (fun x => x.change.addition?)
  have count := ((changes ++ pairUp [] others).mergeSort_perm keyLe).filterMap (fun x => x.change.addition?)
  have added := additions_pairUp [] others
  rw [List.length_nil,List.drop_zero] at added
  rw [List.filterMap_append,none,List.nil_append,added] at count
  rw [added] at kept
  exact (kept.eq_of_length count.length_eq.symm).symm

theorem pairUp_split (entries others : List (AstChunk × Nat)) : pairUp entries others =
    pairUp entries (others.take entries.length) ++ pairUp [] (others.drop entries.length) := by
  induction entries generalizing others with
  | nil => simp [pairUp]
  | cons entry rest ih =>
    cases others with
    | nil =>
      rw [List.take_nil,List.drop_nil]
      simp [pairUp]
    | cons other others =>
      rw [List.length_cons,List.take_succ_cons,List.drop_succ_cons]
      exact congrArg (⟨some entry.2, some other.2, .modified entry.1 other.1⟩ :: ·) (ih others)

/-- Entries of a list are in the order of their positions. -/
theorem freshEntries_rising : (freshEntries base branch).Pairwise fun a b => a.2 ≤ b.2 := by
  refine List.Pairwise.filter _ ?_
  rw [← List.pairwise_map (f := Prod.snd) (R := (· ≤ ·)),List.zipIdx_map_snd]
  exact List.pairwise_le_range'

theorem mem_diffChunks {change : AstChange} : change ∈ diffChunks base branch ↔
    change ∈ (identical base branch).changes.map PlacedChange.change ∨
      change ∈ (pairUp (lostEntries base branch) (freshEntries base branch)).map PlacedChange.change := by
  rw [diffChunks,passes_changes,(((List.mergeSort_perm _ keyLe)).map PlacedChange.change).mem_iff,List.map_append,List.mem_append]

theorem not_identical {change : AstChange} (other : ∀ d, change ≠ .unchanged d) :
    change ∉ (identical base branch).changes.map PlacedChange.change := by
  intro member
  obtain ⟨x, inside, rfl⟩ := List.mem_map.mp member
  obtain ⟨d, same⟩ := identical_changes inside
  exact other d same

theorem mem_lostEntries {c : AstChunk} {i : Nat} (member : (c, i) ∈ lostEntries base branch) : base[i]? = some c :=
  List.mem_zipIdx_iff_getElem?.mp (List.mem_of_mem_filter member)

theorem mem_freshEntries {d : AstChunk} {j : Nat} (member : (d, j) ∈ freshEntries base branch) : branch[j]? = some d :=
  List.mem_zipIdx_iff_getElem?.mp (List.mem_of_mem_filter member)

/-- A chunk is modified into the one it is paired with. -/
theorem modified_mem {c d : AstChunk} : .modified c d ∈ diffChunks base branch ↔
    ∃ i j, (i, j) ∈ (lost (hashes base) (hashes branch)).zip (fresh (hashes base) (hashes branch)) ∧
      base[i]? = some c ∧ branch[j]? = some d := by
  rw [mem_diffChunks,or_iff_right (not_identical fun _ => by simp),modified_mem_pairUp,← lostEntries_snd,← freshEntries_snd,
    List.zip_map]
  refine exists₂_congr fun i j => ?_
  rw [List.mem_map]
  constructor
  · intro member
    obtain ⟨first, second⟩ := List.of_mem_zip member
    exact ⟨⟨_, member, rfl⟩, mem_lostEntries first, mem_freshEntries second⟩
  · rintro ⟨⟨⟨⟨c', i'⟩, ⟨d', j'⟩⟩, member, same⟩, here, there⟩
    obtain ⟨rfl, rfl⟩ := Prod.ext_iff.mp same
    obtain ⟨first, second⟩ := List.of_mem_zip member
    obtain rfl := Option.some.inj (here.symm.trans (mem_lostEntries first))
    obtain rfl := Option.some.inj (there.symm.trans (mem_freshEntries second))
    exact member

/-- What is lost beyond the last fresh chunk is deleted. -/
theorem deleted_mem {c : AstChunk} : .deleted c ∈ diffChunks base branch ↔
    ∃ i ∈ (lost (hashes base) (hashes branch)).drop (fresh (hashes base) (hashes branch)).length, base[i]? = some c := by
  rw [mem_diffChunks,or_iff_right (not_identical fun _ => by simp),deleted_mem_pairUp,← lostEntries_snd,← freshEntries_snd,
    List.length_map,← List.map_drop]
  refine exists_congr fun i => ?_
  rw [List.mem_map]
  constructor
  · intro member
    exact ⟨⟨_, member, rfl⟩, mem_lostEntries (List.mem_of_mem_drop member)⟩
  · rintro ⟨⟨⟨c', i'⟩, member, same⟩, here⟩
    obtain rfl : i' = i := same
    obtain rfl := Option.some.inj (here.symm.trans (mem_lostEntries (List.mem_of_mem_drop member)))
    exact member

/-- The fresh chunks beyond the last that was lost are added, in their order. -/
theorem additions_diffChunks : (diffChunks base branch).filterMap AstChange.addition? =
    ((fresh (hashes base) (hashes branch)).drop (lost (hashes base) (hashes branch)).length).filterMap (branch[·]?) := by
  have unseen : ∀ entries : List (AstChunk × Nat), (∀ e ∈ entries, branch[e.2]? = some e.1) →
      (entries.map Prod.snd).filterMap (branch[·]?) = entries.map Prod.fst := by
    intro entries inside
    rw [List.filterMap_map]
    refine (List.filterMap_congr fun e member => ?_).trans (congrFun (List.filterMap_eq_map (f := Prod.fst)) entries)
    exact inside e member
  rw [diffChunks,List.filterMap_map,passes_changes,pairUp_split,← List.append_assoc]
  refine (additions_sort (freshEntries_rising.sublist (List.drop_sublist _ _)) ?_).trans ?_
  · rw [List.filterMap_append,identical_additions,additions_pairUp,List.drop_eq_nil_of_le (List.length_take_le _ _)]
    rfl
  · rw [← freshEntries_snd,← lostEntries_snd,List.length_map,← List.map_drop,unseen]
    exact fun e member => mem_freshEntries (List.mem_of_mem_drop member)

end AstDiff

end Zaion.Aci
