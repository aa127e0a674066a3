import Mathlib.Data.List.Perm.Basic
import Mathlib.Order.Lattice

/-! A list in the one order its elements have, without repetitions: what is left of it is the set of its elements. -/
namespace Zaion.Lib

section

variable {α : Type} [DecidableEq α]

/-- `Vec::dedup`: of equal neighbours one is kept. -/
def dedupAdjacent : List α → List α
  | [] => []
  | [a] => [a]
  | a :: b :: rest => if a = b then dedupAdjacent (b :: rest) else a :: dedupAdjacent (b :: rest)

variable {a x : α} {l : List α}

@[simp] theorem mem_dedupAdjacent : x ∈ dedupAdjacent l ↔ x ∈ l := by
  induction l using dedupAdjacent.induct with
  | case1 => rfl
  | case2 => rfl
  | case3 b rest ih =>
    rw [dedupAdjacent,if_pos rfl,ih]
    simp
  | case4 a b rest other ih =>
    rw [dedupAdjacent,if_neg other,List.mem_cons,ih,@List.mem_cons _ a (b :: rest) x]

/-- In an ordered list equal elements are neighbours. -/
theorem dedupAdjacent_increasing {r : α → α → Prop} (antisymm : ∀ a b, r a b → r b a → a = b) (sorted : l.Pairwise r) :
    (dedupAdjacent l).Pairwise fun a b => r a b ∧ a ≠ b := by
  induction l using dedupAdjacent.induct with
  | case1 => exact .nil
  | case2 => exact List.pairwise_singleton _ _
  | case3 b rest ih =>
    rw [dedupAdjacent,if_pos rfl]
    exact ih sorted.tail
  | case4 a b rest other ih =>
    rw [dedupAdjacent,if_neg other]
    obtain ⟨below, later⟩ := List.pairwise_cons.mp sorted
    refine List.pairwise_cons.mpr ⟨fun x member => ?_, ih later⟩
    rw [mem_dedupAdjacent] at member
    refine ⟨below x member, ?_⟩
    rintro rfl
    -- The neighbour lies between the element and its repetition.
    rcases List.mem_cons.mp member with same | further
    · exact other same
    · exact other (antisymm _ _ (below b List.mem_cons_self) ((List.pairwise_cons.mp later).1 _ further))

end

section

variable {α κ : Type} [DecidableEq α] [LinearOrder κ]

/-- Sorted by a key, then rid of repetitions. -/
def canonical (key : α → κ) (l : List α) : List α := dedupAdjacent (l.mergeSort fun a b => decide (key a ≤ key b))

variable {key : α → κ} {a b : List α} {x : α}

@[simp] theorem mem_canonical : x ∈ canonical key a ↔ x ∈ a := by
  rw [canonical,mem_dedupAdjacent,List.mem_mergeSort]

theorem canonical_increasing (injective : Function.Injective key) (l : List α) :
    (canonical key l).Pairwise fun a b => key a ≤ key b ∧ a ≠ b := by
  refine dedupAdjacent_increasing (fun a b below above => injective (le_antisymm below above)) ?_
  have trans (a b c : α) (first : decide (key a ≤ key b) = true) (second : decide (key b ≤ key c) = true) :
      decide (key a ≤ key c) = true :=
    decide_eq_true (le_trans (of_decide_eq_true first) (of_decide_eq_true second))
  have total (a b : α) : (decide (key a ≤ key b) || decide (key b ≤ key a)) = true := by
    rw [Bool.or_eq_true,decide_eq_true_eq,decide_eq_true_eq]
    exact le_total (key a) (key b)
  exact (List.pairwise_mergeSort trans total l).imp fun below => of_decide_eq_true below

theorem canonical_nodup (injective : Function.Injective key) (l : List α) : (canonical key l).Nodup :=
  (canonical_increasing injective l).imp And.right

/-- Lists with the same elements, and no others, have one canonical form. -/
theorem canonical_eq_iff (injective : Function.Injective key) : canonical key a = canonical key b ↔ ∀ x, x ∈ a ↔ x ∈ b := by
  constructor
  · intro same x
    have left : x ∈ canonical key a ↔ x ∈ a := mem_canonical
    rw [← left,same,mem_canonical]
  · intro same
    have perm : (canonical key a).Perm (canonical key b) :=
      (List.perm_ext_iff_of_nodup (canonical_nodup injective a) (canonical_nodup injective b)).mpr fun x => by
        rw [mem_canonical,mem_canonical,same]
    exact perm.eq_of_pairwise (fun x y _ _ below above => injective (le_antisymm below.1 above.1))
      (canonical_increasing injective a) (canonical_increasing injective b)

end

end Zaion.Lib
