import Mathlib.Logic.Function.Basic

/-! Codes whose words can be cut off the front of any text in one way. They need no
separators between them. -/
namespace Zaion.Lib

universe u v

variable {α : Type u} {β : Type v}

/-- What a text starts with and what is left of it are read off the text. -/
def SelfDelimiting (code : α → List β) : Prop :=
  ∀ ⦃a b : α⦄ ⦃x y : List β⦄, code a ++ x = code b ++ y → a = b ∧ x = y

namespace SelfDelimiting

/-- Words of one length. -/
theorem of_length {code : α → List β} (one : Function.Injective code) {n : Nat} (words : ∀ a, (code a).length = n) :
    SelfDelimiting code := by
  intro a b x y same
  obtain ⟨word, rest⟩ := List.append_inj same ((words a).trans (words b).symm)
  exact ⟨one word, rest⟩

/-- Words behind a header that gives their length, with anything fixed after them. -/
theorem headed (header body : α → List β) {tail : List β} (cuts : ∀ ⦃a b x y⦄,
    header a ++ x = header b ++ y → (body a).length = (body b).length ∧ x = y) (one : Function.Injective body) :
    SelfDelimiting (fun a => header a ++ body a ++ tail) := by
  intro a b x y same
  simp only [List.append_assoc] at same
  obtain ⟨long, words⟩ := cuts same
  obtain ⟨word, rest⟩ := List.append_inj words long
  exact ⟨one word, List.append_cancel_left rest⟩

/-- As many words on both sides, with anything behind them. -/
theorem flatMap_cut {code : α → List β} (cuts : SelfDelimiting code) {values others : List α} {x y : List β}
    (length : values.length = others.length) (same : values.flatMap code ++ x = others.flatMap code ++ y) :
    values = others ∧ x = y := by
  induction values generalizing others with
  | nil =>
    obtain rfl := List.length_eq_zero_iff.mp length.symm
    exact ⟨rfl, same⟩
  | cons a values ih =>
    cases others with
    | nil => cases length
    | cons b others =>
      simp only [List.flatMap_cons,List.append_assoc] at same
      obtain ⟨rfl, rest⟩ := cuts same
      obtain ⟨rfl, behind⟩ := ih (Nat.succ.inj length) rest
      exact ⟨rfl, behind⟩

/-- The words of a list one after the other. -/
theorem flatMap {code : α → List β} (cuts : SelfDelimiting code) (some : ∀ a, code a ≠ []) :
    Function.Injective (fun values : List α => values.flatMap code) := by
  intro values
  induction values with
  | nil =>
    intro others same
    cases others with
    | nil => rfl
    | cons b others =>
      simp only [List.flatMap_nil,List.flatMap_cons] at same
      exact absurd (List.append_eq_nil_iff.mp same.symm).1 (some b)
  | cons a values ih =>
    intro others same
    cases others with
    | nil =>
      simp only [List.flatMap_nil,List.flatMap_cons] at same
      exact absurd (List.append_eq_nil_iff.mp same).1 (some a)
    | cons b others =>
      simp only [List.flatMap_cons] at same
      obtain ⟨rfl, rest⟩ := cuts same
      rw [ih rest]

end SelfDelimiting

end Zaion.Lib
