import Mathlib.Data.List.Basic
import Mathlib.Data.List.Induction

/-! A list put into groups from the front: an element joins the group that is open or, where that is full, starts a new
one. What is full may depend on a control that moves with every element. -/
namespace Zaion.Lib

structure Filling (α σ : Type) where
  closed : List (List α)
  current : List α
  control : σ

namespace Filling

variable {α σ : Type} (move : σ → α → σ) (full : σ → List α → α → Bool) (start : σ)

def push (f : Filling α σ) (a : α) : Filling α σ :=
  let control := move f.control a
  if full control f.current a then ⟨if f.current.isEmpty then f.closed else f.closed ++ [f.current], [a], control⟩
  else ⟨f.closed, f.current ++ [a], control⟩

def groups (f : Filling α σ) : List (List α) := if f.current.isEmpty then f.closed else f.closed ++ [f.current]

/-- The state after the elements of a list. -/
def filled (xs : List α) : Filling α σ := xs.foldl (push move full) ⟨[], [], start⟩

/-- Behind the elements in front, the element starts a group. -/
def Opens (front : List α) (a : α) : Prop :=
  full (move (filled move full start front).control a) (filled move full start front).current a = true ∧ front ≠ []

variable {move full start} {xs front rest : List α} {a : α}

theorem filled_concat : filled move full start (xs ++ [a]) = push move full (filled move full start xs) a := by
  rw [filled,List.foldl_append]
  rfl

theorem filled_control : (filled move full start xs).control = xs.foldl move start := by
  induction xs using List.reverseRecOn with
  | nil => rfl
  | append_singleton xs a ih =>
    rw [filled_concat,List.foldl_append,push,ih]
    split <;> rfl

variable (move full start) in
theorem current_nil_iff : (filled move full start xs).current = [] ↔ xs = [] := by
  cases xs using List.reverseRecOn with
  | nil => simp [filled]
  | append_singleton xs a =>
    rw [filled_concat,push]
    split <;> simp

theorem groups_concat : (filled move full start (xs ++ [a])).groups =
    (filled move full start (xs ++ [a])).closed ++ [(filled move full start (xs ++ [a])).current] := by
  have some : (filled move full start (xs ++ [a])).current ≠ [] := by simp [current_nil_iff]
  rw [groups,if_neg (by simpa using some)]

variable (move full start) in
/-- What is closed with an element is what was grouped before it, or what was closed. -/
theorem closed_concat (xs : List α) (a : α) : (filled move full start (xs ++ [a])).closed = (filled move full start xs).groups ∧
      (filled move full start (xs ++ [a])).current = [a] ∧ (Opens move full start xs a ∨ xs = []) ∨
    (filled move full start (xs ++ [a])).closed = (filled move full start xs).closed ∧
      (filled move full start (xs ++ [a])).current = (filled move full start xs).current ++ [a] ∧ ¬ Opens move full start xs a := by
  rw [filled_concat,push,Opens]
  split
  · next now =>
    refine .inl ⟨rfl, rfl, ?_⟩
    by_cases none : xs = []
    · exact .inr none
    · exact .inl ⟨now, none⟩
  · next open_ => exact .inr ⟨rfl, rfl, fun opens => open_ opens.1⟩

variable (move full start) in
/-- Nothing is lost. -/
theorem groups_flatten (xs : List α) : (filled move full start xs).groups.flatten = xs := by
  have whole (f : Filling α σ) : f.groups.flatten = f.closed.flatten ++ f.current := by
    unfold groups
    split
    · next none => simp [List.isEmpty_iff.mp none]
    · simp
  induction xs using List.reverseRecOn with
  | nil => rfl
  | append_singleton xs a ih =>
    rw [groups_concat,List.flatten_append,List.flatten_singleton]
    rcases closed_concat move full start xs a with ⟨closed, current, _⟩ | ⟨closed, current, _⟩
    · rw [closed,current,ih]
    · rw [whole] at ih
      rw [closed,current,← List.append_assoc,ih]

theorem closed_subset {g : List α} (member : g ∈ (filled move full start xs).closed) : g ∈ (filled move full start xs).groups := by
  unfold groups
  split
  · exact member
  · exact List.mem_append_left _ member

/-- Every group was once the open one. -/
theorem current_of_group {g : List α} (member : g ∈ (filled move full start xs).groups) :
    ∃ front a rest, xs = front ++ a :: rest ∧ (filled move full start (front ++ [a])).current = g := by
  induction xs using List.reverseRecOn with
  | nil => cases member
  | append_singleton xs a ih =>
    rw [groups_concat,List.mem_append,List.mem_singleton] at member
    rcases member with closed | rfl
    · have before : g ∈ (filled move full start xs).groups := by
        rcases closed_concat move full start xs a with ⟨same, _⟩ | ⟨same, _⟩
        · exact same ▸ closed
        · exact closed_subset (same ▸ closed)
      obtain ⟨front, b, rest, rfl, current⟩ := ih before
      exact ⟨front, b, rest ++ [a], by simp, current⟩
    · exact ⟨xs, a, [], rfl, rfl⟩

variable (move full start) in
/-- What is open becomes a group, with what joins it. -/
theorem group_of_current (front : List α) (a : α) (rest : List α) :
    ∃ g ∈ (filled move full start (front ++ a :: rest)).groups, (filled move full start (front ++ [a])).current <+: g := by
  induction rest using List.reverseRecOn with
  | nil => exact ⟨_, by rw [groups_concat]; exact List.mem_append_right _ (List.mem_singleton_self _), List.prefix_rfl⟩
  | append_singleton rest b ih =>
    obtain ⟨g, member, front_⟩ := ih
    have shape : front ++ a :: (rest ++ [b]) = (front ++ a :: rest) ++ [b] := by simp
    rw [shape,groups_concat]
    rcases closed_concat move full start (front ++ a :: rest) b with
      ⟨closed, _⟩ | ⟨closed, current, _⟩
    · exact ⟨g, List.mem_append_left _ (closed ▸ member), front_⟩
    · rw [closed,current]
      unfold groups at member
      split at member
      · exact ⟨g, List.mem_append_left _ member, front_⟩
      · rcases List.mem_append.mp member with old | open_
        · exact ⟨g, List.mem_append_left _ old, front_⟩
        · refine ⟨_, List.mem_append_right _ (List.mem_singleton_self _), ?_⟩
          rw [← List.mem_singleton.mp open_]
          exact front_.trans (List.prefix_append _ _)

/-- What holds of a group and of everything it starts with is checked element by element. -/
theorem groups_iff {P : List α → Prop} (down : ∀ g h, g <+: h → P h → P g) : (∀ g ∈ (filled move full start xs).groups, P g) ↔
    ∀ front a rest, xs = front ++ a :: rest → P (filled move full start (front ++ [a])).current := by
  constructor
  · rintro all front a rest rfl
    obtain ⟨g, member, part⟩ := group_of_current move full start front a rest
    exact down _ g part (all g member)
  · intro each g member
    obtain ⟨front, a, rest, whole, rfl⟩ := current_of_group member
    exact each front a rest whole

/-- Where an element starts a group the groups are cut. -/
theorem cut_of_opens (opens : Opens move full start front a) (rest : List α) :
    ∃ pre post, (filled move full start (front ++ a :: rest)).groups = pre ++ post ∧ pre.flatten = front := by
  have first : ∃ post, (filled move full start (front ++ a :: rest)).groups =
      (filled move full start front).groups ++ post ∧ (filled move full start front).groups <+:
        (filled move full start (front ++ a :: rest)).closed := by
    induction rest using List.reverseRecOn with
    | nil =>
      rcases closed_concat move full start front a with ⟨closed, _⟩ | ⟨_, _, other⟩
      · exact ⟨_, by rw [groups_concat,closed], closed ▸ List.prefix_rfl⟩
      · exact absurd opens other
    | append_singleton rest b ih =>
      obtain ⟨post, groups, closed⟩ := ih
      have shape : front ++ a :: (rest ++ [b]) = (front ++ a :: rest) ++ [b] := by simp
      have later : (filled move full start front).groups <+: (filled move full start ((front ++ a :: rest) ++ [b])).closed := by
        rcases closed_concat move full start (front ++ a :: rest) b with ⟨same, _⟩ | ⟨same, _⟩
        · rw [same,groups]
          exact List.prefix_append _ _
        · rw [same]
          exact closed
      rw [shape]
      obtain ⟨more, whole⟩ := later
      exact ⟨more ++ [_], by rw [groups_concat,← whole,List.append_assoc], ⟨more, whole⟩⟩
  obtain ⟨post, groups, _⟩ := first
  exact ⟨_, post, groups, groups_flatten move full start front⟩

/-- The groups are cut at the ends and where an element starts one. -/
theorem opens_of_cut {pre post : List (List α)} (cut : (filled move full start xs).groups = pre ++ post) :
    pre.flatten = [] ∨ pre.flatten = xs ∨ ∃ a rest, xs = pre.flatten ++ a :: rest ∧ Opens move full start pre.flatten a := by
  induction xs using List.reverseRecOn generalizing post with
  | nil =>
    have none : pre ++ post = [] := cut.symm
    simp [(List.append_eq_nil_iff.mp none).1]
  | append_singleton xs a ih =>
    have all := congrArg List.flatten cut
    rw [groups_flatten,List.flatten_append] at all
    rcases List.eq_nil_or_concat' post with rfl | ⟨post, last, rfl⟩
    · exact .inr (.inl (by simpa using all.symm))
    · rw [groups_concat,← List.append_assoc] at cut
      obtain ⟨closed, _⟩ := List.append_inj' cut rfl
      have earlier : pre.flatten = [] ∨ pre.flatten = xs ∧ (Opens move full start xs a ∨ xs = []) ∨
          ∃ b rest, xs = pre.flatten ++ b :: rest ∧ Opens move full start pre.flatten b := by
        rcases closed_concat move full start xs a with ⟨same, _, opens⟩ | ⟨same, _, shut⟩
        · rcases ih (same ▸ closed) with none | whole | some
          · exact .inl none
          · exact .inr (.inl ⟨whole, opens⟩)
          · exact .inr (.inr some)
        · have before : (filled move full start xs).groups = pre ++ (post ++ if (filled move full start xs).current.isEmpty then []
              else [(filled move full start xs).current]) := by
            rw [← List.append_assoc,← closed,same,groups]
            split <;> simp
          rcases ih before with none | whole | some
          · exact .inl none
          · -- The open group would be empty.
            have rest := groups_flatten move full start xs
            rw [before,List.flatten_append,whole,List.append_right_eq_self,List.flatten_append,List.append_eq_nil_iff] at rest
            have empty : xs = [] := by
              rw [← current_nil_iff move full start]
              by_contra some
              have shown := rest.2
              rw [if_neg (by simpa using some)] at shown
              exact some (by simpa using shown)
            exact .inl (whole.trans empty)
          · exact .inr (.inr some)
      rcases earlier with none | ⟨whole, opens | rfl⟩ | ⟨b, rest, split_, opens⟩
      · exact .inl none
      · exact .inr (.inr ⟨a, [], by rw [whole], whole ▸ opens⟩)
      · exact .inl whole
      · refine .inr (.inr ⟨b, rest ++ [a], ?_, opens⟩)
        conv_lhs => rw [split_]
        simp

end Filling

end Zaion.Lib
