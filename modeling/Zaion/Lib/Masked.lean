import Mathlib.Data.List.Basic
import Mathlib.Data.List.Infix
import Mathlib.Algebra.BigOperators.Group.List.Basic
import Mathlib.Algebra.GroupWithZero.Nat

/-! A text some parts of which are hidden behind masks, and where in the text what one sees comes from. -/
namespace Zaion.Lib

variable {α : Type}

/-- `hides part shown rest`: before `rest`, `part` may be hidden as `shown`. -/
inductive Masked (hides : List α → List α → List α → Prop) : List α → List α → Prop
  | nil : Masked hides [] []
  | keep (c : α) {u v : List α} (later : Masked hides u v) : Masked hides (c :: u) (c :: v)
  | hide {part shown rest v : List α} (allowed : hides part shown rest) (later : Masked hides rest v) :
    Masked hides (part ++ rest) (shown ++ v)

namespace Masked

variable {hides : List α → List α → List α → Prop} {u v q b front : List α} {c : α}

theorem refl (hides : List α → List α → List α → Prop) (u : List α) : Masked hides u u := by
  induction u with
  | nil => exact .nil
  | cons c rest ih => exact .keep c ih

theorem behind (front : List α) (later : Masked hides u v) : Masked hides (front ++ u) (front ++ v) := by
  induction front with
  | nil => exact later
  | cons c front ih => exact .keep c ih

/-- What no mask begins with is seen as it stands. -/
theorem kept (fresh : ∀ part shown rest, hides part shown rest → ∃ c more, shown = c :: more ∧ c ∉ q)
    (masked : Masked hides u (q ++ v)) : ∃ u', u = q ++ u' ∧ Masked hides u' v := by
  induction q generalizing u with
  | nil => exact ⟨u, rfl, masked⟩
  | cons d q ih =>
    have later (part shown rest : List α) (allowed : hides part shown rest) : ∃ c more, shown = c :: more ∧ c ∉ q := by
      obtain ⟨c, more, rfl, absent⟩ := fresh part shown rest allowed
      exact ⟨c, more, rfl, fun member => absent (List.mem_cons_of_mem _ member)⟩
    generalize seen : d :: q ++ v = w at masked
    cases masked with
    | nil => cases seen
    | keep c masked =>
      obtain ⟨rfl, rfl⟩ := List.cons.inj seen
      obtain ⟨u', rfl, rest⟩ := ih later masked
      exact ⟨u', rfl, rest⟩
    | hide allowed masked =>
      obtain ⟨c, more, rfl, absent⟩ := fresh _ _ _ allowed
      exact absurd ((List.cons.inj seen).1 ▸ List.mem_cons_self) absent

/-- What is seen stands in the text itself, or begins inside a mask. -/
theorem source (fresh : ∀ part shown rest, hides part shown rest → ∃ c more, shown = c :: more ∧ c ∉ q)
    (masked : Masked hides u (front ++ c :: (q ++ b))) :
    (∃ front' b', u = front' ++ c :: (q ++ b') ∧ Masked hides b' b) ∨
      ∃ front' part shown rest v' k, u = front' ++ (part ++ rest) ∧ hides part shown rest ∧ Masked hides rest v' ∧
        k < shown.length ∧ shown.drop k ++ v' = c :: (q ++ b) := by
  generalize seen : front ++ c :: (q ++ b) = w at masked
  induction masked generalizing front with
  | nil => simp at seen
  | keep d masked ih =>
    cases front with
    | nil =>
      obtain ⟨rfl, rfl⟩ := List.cons.inj seen
      obtain ⟨u', rfl, rest⟩ := kept fresh masked
      exact .inl ⟨[], u', rfl, rest⟩
    | cons e front =>
      obtain ⟨rfl, rfl⟩ := List.cons.inj seen
      rcases ih rfl with ⟨front', b', rfl, rest⟩ | ⟨front', part, shown, rest, v', k, rfl, found⟩
      · exact .inl ⟨e :: front', b', rfl, rest⟩
      · exact .inr ⟨e :: front', part, shown, rest, v', k, rfl, found⟩
  | @hide part shown rest v' allowed masked ih =>
    by_cases inside : front.length < shown.length
    · refine .inr ⟨[], part, shown, rest, v', front.length, rfl, allowed, masked, inside, ?_⟩
      have cut := congrArg (List.drop front.length) seen
      rwa [List.drop_left,List.drop_append_of_le_length inside.le,eq_comm] at cut
    · obtain ⟨front', rfl⟩ : ∃ front', front = shown ++ front' := by
        have start : shown <+: front ++ c :: (q ++ b) := ⟨v', seen.symm⟩
        obtain ⟨front', same⟩ := List.prefix_of_prefix_length_le start (List.prefix_append front _) (Nat.le_of_not_lt inside)
        exact ⟨front', same.symm⟩
      rw [List.append_assoc] at seen
      rcases ih (List.append_cancel_left seen) with ⟨front', b', rfl, rest'⟩ | ⟨front', part', shown', rest', v'', k, rfl, found⟩
      · exact .inl ⟨part ++ front', b', by rw [List.append_assoc], rest'⟩
      · exact .inr ⟨part ++ front', part', shown', rest', v'', k, by rw [List.append_assoc], found⟩

/-- What no mask shows divides the text as it divides what is seen. -/
theorem cut (plain : ∀ part shown rest, hides part shown rest → c ∉ shown)
    (fresh : ∀ part shown rest, hides part shown rest → ∃ d more, shown = d :: more ∧ d ∉ q)
    (masked : Masked hides u (front ++ c :: (q ++ b))) :
    ∃ front' b', u = front' ++ c :: (q ++ b') ∧ Masked hides b' b ∧
      ∀ e ∈ front', e ∈ front ∨ ∃ part shown rest, hides part shown rest ∧ e ∈ part := by
  generalize seen : front ++ c :: (q ++ b) = w at masked
  induction masked generalizing front with
  | nil => simp at seen
  | keep d masked ih =>
    cases front with
    | nil =>
      obtain ⟨rfl, rfl⟩ := List.cons.inj seen
      obtain ⟨u', rfl, rest⟩ := kept fresh masked
      exact ⟨[], u', rfl, rest, nofun⟩
    | cons e front =>
      obtain ⟨rfl, rfl⟩ := List.cons.inj seen
      obtain ⟨front', b', rfl, rest, from_⟩ := ih rfl
      refine ⟨e :: front', b', rfl, rest, ?_⟩
      rintro x (_ | ⟨_, member⟩)
      · exact .inl List.mem_cons_self
      · exact (from_ x member).imp_left (List.mem_cons_of_mem e)
  | @hide part shown rest v' allowed masked ih =>
    have whole : shown.length ≤ front.length := by
      by_contra inside
      rcases List.append_eq_append_iff.mp seen with ⟨more, split, rest_⟩ | ⟨more, split, -⟩
      · cases more with
        | nil => exact inside (by simp [split])
        | cons d more =>
          obtain ⟨rfl, -⟩ := List.cons.inj rest_
          exact plain _ _ _ allowed (split ▸ List.mem_append_right front List.mem_cons_self)
      · exact inside (by simp [split])
    obtain ⟨front', rfl⟩ : ∃ front', front = shown ++ front' := by
      have start : shown <+: front ++ c :: (q ++ b) := ⟨v', seen.symm⟩
      obtain ⟨front', same⟩ := List.prefix_of_prefix_length_le start (List.prefix_append front _) whole
      exact ⟨front', same.symm⟩
    rw [List.append_assoc] at seen
    obtain ⟨front'', b', rfl, rest', from_⟩ := ih (List.append_cancel_left seen)
    refine ⟨part ++ front'', b', by rw [List.append_assoc], rest', ?_⟩
    intro x member
    rcases List.mem_append.mp member with hidden | later
    · exact .inr ⟨part, shown, _, allowed, hidden⟩
    · exact (from_ x later).imp_left (List.mem_append_right shown)

/-- What no mask shows, and is seen, is in the text. -/
theorem mem (plain : ∀ part shown rest, hides part shown rest → c ∉ shown) (masked : Masked hides u v) (seen : c ∈ v) :
    c ∈ u := by
  induction masked with
  | nil => exact seen
  | keep d masked ih =>
    rcases List.mem_cons.mp seen with rfl | later
    · exact List.mem_cons_self
    · exact List.mem_cons_of_mem d (ih later)
  | hide allowed masked ih =>
    rcases List.mem_append.mp seen with inside | later
    · exact absurd inside (plain _ _ _ allowed)
    · exact List.mem_append_right _ (ih later)

/-- A mask that may be bigger in the text may be so in what is seen. -/
theorem mono {more : List α → List α → List α → Prop} (wider : ∀ part shown rest, hides part shown rest → more part shown rest)
    (masked : Masked hides u v) : Masked more u v := by
  induction masked with
  | nil => exact .nil
  | keep c masked ih => exact .keep c ih
  | hide allowed masked ih => exact .hide (wider _ _ _ allowed) ih

/-- A mask weighs no more than what it hides: in what is seen, the run in front weighs no more than in the text. -/
theorem weight_le (weight : α → Nat) (inside : α → Bool)
    (lighter : ∀ part shown rest, hides part shown rest →
      (∀ e ∈ part, inside e = true) ∧ (∀ e ∈ shown, inside e = true) ∧ (shown.map weight).sum ≤ (part.map weight).sum)
    (masked : Masked hides u v) : ((v.takeWhile inside).map weight).sum ≤ ((u.takeWhile inside).map weight).sum := by
  induction masked with
  | nil => exact Nat.le_refl _
  | keep c masked ih =>
    cases within : inside c with
    | false => rw [List.takeWhile_cons_of_neg (by simp [within])]; exact Nat.zero_le _
    | true =>
      rw [List.takeWhile_cons_of_pos within,List.takeWhile_cons_of_pos within]
      simpa using ih
  | hide allowed masked ih =>
    obtain ⟨inPart, inShown, light⟩ := lighter _ _ _ allowed
    rw [List.takeWhile_append_of_pos inPart,List.takeWhile_append_of_pos inShown]
    simp only [List.map_append,List.sum_append]
    exact Nat.add_le_add light ih

end Masked

end Zaion.Lib
