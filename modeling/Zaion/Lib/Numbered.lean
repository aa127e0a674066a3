import Mathlib.Logic.Function.Basic

/-! Texts that end in a number, and numbers read from texts. -/
namespace Zaion.Lib

theorem toString_injective : Function.Injective fun n : Nat => toString n := by
  intro m n same
  have digits : Nat.toDigits 10 m = Nat.toDigits 10 n := String.ofList_injective same
  rw [← Nat.ofDigitChars_toDigits (by decide : 1 < 10) (by decide : 10 ≤ 10) (n := m),digits,Nat.ofDigitChars_toDigits] <;>
    decide

/-- The text with a number behind it. -/
def numberedText (start : String) (n : Nat) : String := start ++ toString n

theorem numberedText_injective (start : String) : Function.Injective (numberedText start) := by
  intro m n same
  have texts := congrArg String.toList same
  simp only [numberedText,String.toList_append] at texts
  exact toString_injective (String.toList_inj.mp (List.append_cancel_left texts))

def withoutPlus : List Char → List Char
  | '+' :: rest => rest
  | chars => chars

theorem withoutPlus_digits {digits : List Char} (all : ∀ c ∈ digits, c.isDigit = true) : withoutPlus digits = digits := by
  unfold withoutPlus
  split
  · next rest =>
    have digit := all '+' List.mem_cons_self
    simp at digit
  · rfl

/-- `parse` of an unsigned integer: an optional sign, then decimal digits of a number below the bound. -/
def parseUnsigned (bound : Nat) (text : String) : Option Nat :=
  let digits := withoutPlus text.toList
  if digits ≠ [] ∧ digits.all Char.isDigit ∧ Nat.ofDigitChars 10 digits 0 < bound then
    some (Nat.ofDigitChars 10 digits 0)
  else none

theorem isDigit_toString {n : Nat} {c : Char} (member : c ∈ (toString n).toList) : c.isDigit = true := by
  have digits : (toString n).toList = Nat.toDigits 10 n := String.toList_ofList
  rw [digits] at member
  exact Nat.isDigit_of_mem_toDigits (by decide) (by decide) member

theorem parseUnsigned_toString {bound n : Nat} (small : n < bound) : parseUnsigned bound (toString n) = some n := by
  have digits : (toString n).toList = Nat.toDigits 10 n := String.toList_ofList
  have all : ∀ c ∈ (toString n).toList, c.isDigit = true := fun _ => isDigit_toString
  rw [parseUnsigned,withoutPlus_digits all,if_pos]
  · rw [digits,Nat.ofDigitChars_toDigits (by decide) (by decide)]
  · refine ⟨digits ▸ Nat.toDigits_ne_nil, List.all_eq_true.mpr all, ?_⟩
    rwa [digits,Nat.ofDigitChars_toDigits (by decide) (by decide)]

theorem toString_int (n : Int) : toString n = if 0 ≤ n then toString n.toNat else "-" ++ toString (-n).toNat := by
  rw [Int.toString_eq_repr,Int.repr_eq_if]
  rfl

theorem toString_int_injective : Function.Injective fun n : Int => toString n := by
  have apart (m n : Nat) : "-" ++ toString m ≠ toString n := by
    intro same
    have digit : ('-' : Char).isDigit = true := isDigit_toString (n := n) (by rw [← same]; simp)
    simp at digit
  intro m n same
  simp only [toString_int] at same
  split at same <;> split at same
  · have parts := toString_injective same
    omega
  · exact absurd same.symm (apart _ _)
  · exact absurd same (apart _ _)
  · have parts := toString_injective ((String.append_right_inj _).mp same)
    omega

end Zaion.Lib
