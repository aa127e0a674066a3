import Zaion.Lib.Text
import Mathlib.Algebra.Order.BigOperators.Group.List
import Mathlib.Algebra.Order.Group.Nat
import Mathlib.Algebra.Ring.Nat

/-! Sizes of texts in bytes. -/
namespace Zaion.Lib

theorem utf8ByteSize_ofList (text : List Char) : (String.ofList text).utf8ByteSize = (text.map Char.utf8Size).sum := by
  induction text with
  | nil => rfl
  | cons c rest ih =>
    rw [← List.singleton_append,String.ofList_append,String.utf8ByteSize_append,ih,← String.singleton_eq_ofList,
      String.utf8ByteSize_singleton]
    simp

theorem utf8ByteSize_eq (s : String) : s.utf8ByteSize = (s.toList.map Char.utf8Size).sum := by
  rw [← utf8ByteSize_ofList,String.ofList_toList]

/-- A character has four bytes at the most. -/
theorem utf8ByteSize_le (s : String) : s.utf8ByteSize ≤ 4 * s.toList.length := by
  rw [utf8ByteSize_eq]
  induction s.toList with
  | nil => exact Nat.le_refl 0
  | cons c rest ih =>
    have first := c.utf8Size_le_four
    simp only [List.map_cons,List.sum_cons,List.length_cons]
    omega

theorem utf8ByteSize_mono {s t : String} (part : s.toList.Sublist t.toList) : s.utf8ByteSize ≤ t.utf8ByteSize := by
  rw [utf8ByteSize_eq,utf8ByteSize_eq]
  exact (part.map Char.utf8Size).sum_le_sum fun _ _ => Nat.zero_le _

theorem trim_size_le (s : String) : (trim s).utf8ByteSize ≤ s.utf8ByteSize := by
  apply utf8ByteSize_mono
  rw [trim_eq,String.toList_ofList]
  exact ((List.rdropWhile_prefix _ _).sublist).trans (List.dropWhile_sublist _)

/-- A text that is visible at both ends has nothing to trim. -/
theorem trim_of_visible {s : String} {first last : Char} (opens : s.toList.head? = some first)
    (closes : s.toList.getLast? = some last) (firstVisible : isWhiteSpace first = false)
    (lastVisible : isWhiteSpace last = false) : trim s = s := by
  have front : s.toList.dropWhile isWhiteSpace = s.toList := by
    rw [List.dropWhile_eq_self_iff]
    intro some_ blank
    rw [List.head?_eq_some_head (List.ne_nil_of_length_pos some_),Option.some.injEq,List.head_eq_getElem] at opens
    rw [opens,firstVisible] at blank
    cases blank
  have back : s.toList.rdropWhile isWhiteSpace = s.toList := by
    rw [List.rdropWhile_eq_self_iff]
    intro some_ blank
    rw [List.getLast?_eq_some_getLast some_,Option.some.injEq] at closes
    rw [closes,lastVisible] at blank
    cases blank
  rw [trim_eq,front,back,String.ofList_toList]

/-- One byte for each decimal digit. -/
theorem decimal_size_le {n k : Nat} (some_ : 0 < k) (below : n < 10 ^ k) : (toString n).utf8ByteSize ≤ 4 * k := by
  refine (utf8ByteSize_le _).trans (Nat.mul_le_mul_left 4 ?_)
  rw [Nat.toString_eq_repr,Nat.toList_repr]
  exact (Nat.length_toDigits_le_iff (by decide) some_).mpr below

theorem sum_le_of_each {sizes : List Nat} {n : Nat} (each : ∀ size ∈ sizes, size ≤ n) : sizes.sum ≤ sizes.length * n := by
  induction sizes with
  | nil => exact Nat.zero_le _
  | cons size rest ih =>
    have here := each size List.mem_cons_self
    have later := ih fun other member => each other (.tail _ member)
    rw [List.sum_cons,List.length_cons,Nat.succ_mul]
    omega

theorem join_size (texts : List String) : (String.join texts).utf8ByteSize = (texts.map String.utf8ByteSize).sum := by
  induction texts with
  | nil => rfl
  | cons text rest ih => rw [String.join_cons,String.utf8ByteSize_append,ih,List.map_cons,List.sum_cons]

theorem joined_size (first second : String) (rest : List String) : ("\n".intercalate (first :: second :: rest)).utf8ByteSize =
    first.utf8ByteSize + 1 + ("\n".intercalate (second :: rest)).utf8ByteSize := by
  rw [String.intercalate_cons_cons,String.utf8ByteSize_append,String.utf8ByteSize_append]
  rfl

/-- Lines joined are their bytes and a break after each but the last. -/
theorem joined_sum {lines : List String} (some_ : lines ≠ []) :
    ("\n".intercalate lines).utf8ByteSize + 1 = (lines.map fun line => line.utf8ByteSize + 1).sum := by
  induction lines with
  | nil => exact absurd rfl some_
  | cons first rest ih =>
    rw [List.map_cons,List.sum_cons]
    cases rest with
    | nil => rw [String.intercalate_singleton,List.map_nil,List.sum_nil,Nat.add_zero]
    | cons second rest => rw [joined_size,← ih (List.cons_ne_nil _ _),Nat.add_assoc]

end Zaion.Lib
