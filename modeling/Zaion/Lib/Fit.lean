import Mathlib.Algebra.Ring.Nat
import Mathlib.Algebra.BigOperators.Group.List.Basic
import Mathlib.Data.List.Infix

/-! The longest part of a list from its front that stays within a budget, taken greedily. -/
namespace Zaion.Lib

variable {α : Type _} (cost : α → Nat) (budget : Nat)

/-- Items from the front, as long as they fit beside what is used. -/
def fitting : Nat → List α → List α
  | _, [] => []
  | used, a :: rest => if budget < used + cost a then [] else a :: fitting (used + cost a) rest

variable {cost} {budget} {used : Nat} {items : List α}

theorem fitting_prefix : fitting cost budget used items <+: items := by
  induction items generalizing used with
  | nil => exact List.prefix_rfl
  | cons a rest ih =>
    rw [fitting]
    split
    · exact List.nil_prefix
    · exact (List.prefix_cons_inj a).mpr ih

theorem fitting_le (fits : used ≤ budget) : used + ((fitting cost budget used items).map cost).sum ≤ budget := by
  induction items generalizing used with
  | nil => simpa [fitting] using fits
  | cons a rest ih =>
    rw [fitting]
    split
    · simpa using fits
    · have later := ih (Nat.not_lt.mp ‹_›)
      rw [List.map_cons,List.sum_cons,← Nat.add_assoc]
      exact later

/-- No longer part from the front fits. -/
theorem fitting_maximal {part : List α} (front : part <+: items)
    (longer : (fitting cost budget used items).length < part.length) : budget < used + (part.map cost).sum := by
  induction items generalizing used part with
  | nil =>
    obtain rfl := List.prefix_nil.mp front
    simp at longer
  | cons a rest ih =>
    cases part with
    | nil => simp at longer
    | cons b part =>
      obtain ⟨rfl, inner⟩ := List.cons_prefix_cons.mp front
      rw [List.map_cons,List.sum_cons]
      rw [fitting] at longer
      split at longer
      · omega
      · have later := ih inner (Nat.lt_of_succ_lt_succ longer)
        omega

/-- A part from the front that fits, before an item that does not fit beside it. -/
theorem fitting_cut {taken rest : List α} {a : α} (fits : used + (taken.map cost).sum ≤ budget)
    (full : budget < used + (taken.map cost).sum + cost a) : fitting cost budget used (taken ++ a :: rest) = taken := by
  induction taken generalizing used with
  | nil =>
    rw [List.nil_append,fitting,if_pos]
    simpa using full
  | cons b taken ih =>
    rw [List.map_cons,List.sum_cons,← Nat.add_assoc] at fits full
    rw [List.cons_append,fitting,if_neg (by omega),ih fits full]

end Zaion.Lib
