import Mathlib.Data.List.Basic
import Mathlib.Data.List.Infix

/-! The first occurrence of one list in another, and how it moves when the text is extended. -/
namespace Zaion.Lib

/-- What holds of every character of a text is decided over the text, not over all characters. -/
instance (priority := 2000) decidableForallMemText {text : List Char} {P : Char → Prop} [DecidablePred P] :
    Decidable (∀ c ∈ text, P c) :=
  List.decidableBAll P text

variable {α : Type} [DecidableEq α]

/-- What stands before and after the first occurrence. -/
def breakAt (needle : List α) : List α → Option (List α × List α)
  | [] => if needle = [] then some ([], []) else none
  | c :: rest =>
    if needle <+: c :: rest then some ([], (c :: rest).drop needle.length)
    else (breakAt needle rest).map fun parts => (c :: parts.1, parts.2)

/-- Its first element occurs nowhere else in it: two occurrences never overlap. -/
def Borderless (needle : List α) : Prop := ∃ c rest, needle = c :: rest ∧ c ∉ rest

section

variable {needle text before after more : List α} {c : α}

theorem breakAt_split (found : breakAt needle text = some (before, after)) : text = before ++ (needle ++ after) := by
  induction text generalizing before after with
  | nil =>
    rw [breakAt] at found
    split at found
    · next empty =>
      cases found
      rw [empty]
      rfl
    · cases found
  | cons c rest ih =>
    rw [breakAt] at found
    split at found
    · next start =>
      cases found
      obtain ⟨tail, split⟩ := start
      rw [← split,List.drop_left,List.nil_append]
    · obtain ⟨⟨front, tail⟩, inner, same⟩ := Option.map_eq_some_iff.mp found
      cases same
      rw [ih inner,List.cons_append]

theorem breakAt_isSome (occurs : needle <:+: text) : (breakAt needle text).isSome = true := by
  induction text with
  | nil => simp [breakAt,List.infix_nil.mp occurs]
  | cons c rest ih =>
    rw [breakAt]
    split
    · rfl
    · next other =>
      rw [Option.isSome_map]
      exact ih ((List.infix_cons_iff.mp occurs).resolve_left other)

theorem breakAt_none_iff : breakAt needle text = none ↔ ¬ needle <:+: text := by
  constructor
  · intro none_ occurs
    have found := breakAt_isSome occurs
    rw [none_] at found
    cases found
  · intro absent
    cases found : breakAt needle text with
    | none => rfl
    | some parts =>
      have split : text = parts.1 ++ (needle ++ parts.2) := breakAt_split found
      exact absurd ⟨parts.1, parts.2, by rw [split,List.append_assoc]⟩ absent

/-- An occurrence that is found is not behind another one. -/
theorem breakAt_least (found : breakAt needle text = some (before, after)) {front : List α} (occurs : front ++ needle <+: text) :
    before <+: front := by
  induction text generalizing before after front with
  | nil =>
    rw [breakAt] at found
    split at found
    · cases found
      exact List.nil_prefix
    · cases found
  | cons c text ih =>
    rw [breakAt] at found
    split at found
    · cases found
      exact List.nil_prefix
    · next absent =>
      obtain ⟨⟨inner, tail⟩, here, same⟩ := Option.map_eq_some_iff.mp found
      cases same
      cases front with
      | nil => exact absurd occurs absent
      | cons d front =>
        obtain ⟨rfl, further⟩ := List.cons_prefix_cons.mp occurs
        exact (List.prefix_cons_inj d).mpr (ih here further)

theorem breakAt_self (needle after : List α) : breakAt needle (needle ++ after) = some ([], after) := by
  cases whole : needle ++ after with
  | nil =>
    obtain ⟨rfl, rfl⟩ := List.append_eq_nil_iff.mp whole
    rfl
  | cons c rest =>
    rw [breakAt,if_pos (whole ▸ List.prefix_append _ _),← whole,List.drop_left]

/-- What comes after the text does not move an occurrence within it. -/
theorem breakAt_append (found : breakAt needle text = some (before, after)) (more : List α) :
    breakAt needle (text ++ more) = some (before, after ++ more) := by
  induction text generalizing before after with
  | nil =>
    rw [breakAt] at found
    split at found
    · next empty =>
      cases found
      subst empty
      exact breakAt_self ([] : List α) more
    · cases found
  | cons c rest ih =>
    have split := breakAt_split found
    rw [breakAt] at found
    split at found
    · obtain ⟨rfl, _⟩ := Prod.mk.inj (Option.some.inj found)
      rw [split,List.nil_append,List.append_assoc]
      exact breakAt_self needle (after ++ more)
    · next other =>
      obtain ⟨⟨front, tail⟩, inner, same⟩ := Option.map_eq_some_iff.mp found
      cases same
      have size : needle.length ≤ (c :: rest).length := by
        rw [split]
        simp only [List.length_append]
        omega
      have still : ¬ needle <+: c :: (rest ++ more) := by
        intro start
        exact other (List.prefix_of_prefix_length_le start (List.prefix_append (c :: rest) more) size)
      rw [List.cons_append,breakAt,if_neg still,ih inner]
      rfl

omit [DecidableEq α] in
theorem Borderless.crosses (borderless : Borderless needle) {c : α} (head : needle.head? = some c) {front : List α}
    (nonempty : front ≠ []) (start : needle <+: front ++ c :: more) : needle <+: front := by
  obtain ⟨d, rest, rfl, once⟩ := borderless
  obtain rfl : d = c := Option.some.inj head
  by_cases short : (d :: rest).length ≤ front.length
  · exact List.prefix_of_prefix_length_le start (List.prefix_append _ _) short
  · -- The occurrence reaches the second `c`, which is not its first element.
    obtain ⟨first, front, rfl⟩ := List.exists_cons_of_ne_nil nonempty
    obtain ⟨tail, split⟩ := start
    have same : rest ++ tail = front ++ d :: more := (List.cons.inj split).2
    have inside : d ∈ rest := by
      have at_ : (rest ++ tail)[front.length]? = some d := by
        rw [same,List.getElem?_append_right (Nat.le_refl _),Nat.sub_self]
        rfl
      rw [List.getElem?_append_left (by simp only [List.length_cons] at short; omega)] at at_
      exact List.mem_of_getElem? at_
    exact absurd inside once

/-- No occurrence starts where its first element does not stand. -/
theorem breakAt_pass (head : needle.head? = some c) (absent : c ∉ text) (more : List α) :
    breakAt needle (text ++ more) = (breakAt needle more).map fun parts => (text ++ parts.1, parts.2) := by
  induction text with
  | nil => simp
  | cons d rest ih =>
    obtain ⟨tail, rfl⟩ := List.head?_eq_some_iff.mp head
    have apart : ¬ c :: tail <+: d :: (rest ++ more) := by
      intro start
      rw [(List.cons_prefix_cons.mp start).1] at absent
      exact absent List.mem_cons_self
    rw [List.cons_append,breakAt,if_neg apart,ih fun inside => absent (List.mem_cons_of_mem d inside),Option.map_map]
    rfl

/-- No occurrence starts in a text without one and ends beyond it, when what follows starts as
the occurrence does. -/
theorem breakAt_skip (borderless : Borderless needle) (head : needle.head? = some c) (absent : ¬ needle <:+: text)
    (more : List α) : breakAt needle (text ++ c :: more) =
      (breakAt needle (c :: more)).map fun parts => (text ++ parts.1, parts.2) := by
  induction text with
  | nil => simp
  | cons d rest ih =>
    have other : ¬ needle <+: d :: (rest ++ c :: more) := by
      intro start
      exact absent (borderless.crosses head (List.cons_ne_nil d rest) start).isInfix
    rw [List.cons_append,breakAt,if_neg other,ih fun inside => absent (List.infix_cons inside),Option.map_map]
    rfl

theorem breakAt_first (borderless : Borderless needle) (absent : ¬ needle <:+: before) (after : List α) :
    breakAt needle (before ++ (needle ++ after)) = some (before, after) := by
  obtain ⟨c, rest, rfl, once⟩ := borderless
  rw [List.cons_append,breakAt_skip ⟨c, rest, rfl, once⟩ rfl absent,← List.cons_append,breakAt_self]
  simp

end

/-! The last occurrence of a separator. -/

/-- `rsplit_once`: around the last separator. -/
def rsplitOnce (separator : Char) (text : List Char) : Option (List Char × List Char) :=
  match text.reverse.dropWhile (· ≠ separator) with
  | [] => none
  | _ :: before => some (before.reverse, (text.reverse.takeWhile (· ≠ separator)).reverse)

theorem rsplitOnce_append {separator : Char} {before after : List Char} (free : separator ∉ after) :
    rsplitOnce separator (before ++ separator :: after) = some (before, after) := by
  have other : ∀ c ∈ after.reverse, decide (c ≠ separator) = true := by
    intro c member
    rw [List.mem_reverse] at member
    exact decide_eq_true (fun same => free (same ▸ member))
  have shape : (before ++ separator :: after).reverse = after.reverse ++ separator :: before.reverse := by simp
  have rest : (before ++ separator :: after).reverse.dropWhile (· ≠ separator) = separator :: before.reverse := by
    rw [shape,List.dropWhile_append_of_pos other,List.dropWhile_cons_of_neg (by simp)]
  have tail : (before ++ separator :: after).reverse.takeWhile (· ≠ separator) = after.reverse := by
    rw [shape,List.takeWhile_append_of_pos other,List.takeWhile_cons_of_neg (by simp),List.append_nil]
  simp only [rsplitOnce,rest,tail,List.reverse_reverse]

theorem rsplitOnce_split {separator : Char} {text before after : List Char}
    (found : rsplitOnce separator text = some (before, after)) : text = before ++ separator :: after := by
  unfold rsplitOnce at found
  split at found
  · cases found
  · next c rest shape =>
    cases found
    have here : c = separator := by
      have stops := List.head?_dropWhile_not (· ≠ separator) text.reverse
      rw [shape] at stops
      simpa using stops
    have whole := List.takeWhile_append_dropWhile (p := (· ≠ separator)) (l := text.reverse)
    rw [shape,here] at whole
    have turned := congrArg List.reverse whole
    simpa using turned.symm

end Zaion.Lib
