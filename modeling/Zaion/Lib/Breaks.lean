import Zaion.Lib.Find

/-! Texts as lines, each closed by a separator, and what stands after the last separator. -/
namespace Zaion.Lib

variable {α : Type}

def closed (sep : α) (lines : List (List α)) : List α := lines.flatMap fun line => line ++ [sep]

section

variable {sep : α} {line last : List α} {lines : List (List α)}

@[simp] theorem closed_nil : closed sep [] = [] := rfl

@[simp] theorem closed_cons : closed sep (line :: lines) = line ++ sep :: closed sep lines := by
  simp [closed]

@[simp] theorem closed_append (a b : List (List α)) : closed sep (a ++ b) = closed sep a ++ closed sep b := by
  simp [closed]

theorem intercalate_closed (lines : List (List α)) (last : List α) :
    [sep].intercalate (lines ++ [last]) = closed sep lines ++ last := by
  induction lines with
  | nil => simp
  | cons line rest ih =>
    cases rest with
    | nil => simp [List.intercalate_cons_cons]
    | cons second rest =>
      rw [List.cons_append] at ih ⊢
      rw [List.cons_append,List.intercalate_cons_cons,ih]
      simp

/-- With a separator behind it, what is joined is closed. -/
theorem intercalate_concat_sep (some_ : lines ≠ []) : [sep].intercalate lines ++ [sep] = closed sep lines := by
  obtain ⟨init, line, rfl⟩ := (List.eq_nil_or_concat lines).resolve_left some_
  rw [List.concat_eq_append,intercalate_closed,closed_append]
  simp

end

section

variable {needle a b : List α} {c : α}

/-- An element that a list does not have keeps its occurrences apart. -/
theorem infix_around (absent : c ∉ needle) : needle <:+: a ++ c :: b ↔ needle <:+: a ∨ needle <:+: b := by
  constructor
  · rintro ⟨front, rest, same⟩
    rw [List.append_assoc] at same
    rcases List.append_eq_append_iff.mp same with ⟨more, rfl, inner⟩ | ⟨more, rfl, inner⟩
    · rcases List.append_eq_append_iff.mp inner with ⟨last, rfl, -⟩ | ⟨last, rfl, behind⟩
      · exact .inl ⟨front, last, by rw [List.append_assoc]⟩
      · cases last with
        | nil => exact .inl ⟨front, [], by simp⟩
        | cons d last => exact absurd (List.mem_append_right _ ((List.cons.inj behind).1 ▸ List.mem_cons_self)) absent
    · cases more with
      | nil =>
        cases needle with
        | nil => exact .inl List.nil_infix
        | cons d needle => exact absurd ((List.cons.inj inner).1 ▸ List.mem_cons_self) absent
      | cons d more =>
        exact .inr ⟨more, rest, by rw [(List.cons.inj inner).2,List.append_assoc]; rfl⟩
  · rintro (here | there)
    · exact here.trans (List.prefix_append a _).isInfix
    · exact there.trans ((List.suffix_cons c b).trans (List.suffix_append a _)).isInfix

/-- A separator without any of its elements keeps the parts apart. -/
theorem infix_separated {sep : List α} (some_ : sep ≠ []) (absent : ∀ c ∈ sep, c ∉ needle) :
    needle <:+: a ++ (sep ++ b) ↔ needle <:+: a ∨ needle <:+: b := by
  induction sep generalizing a with
  | nil => exact absurd rfl some_
  | cons c sep ih =>
    obtain ⟨here, later⟩ := List.forall_mem_cons.mp absent
    rw [List.cons_append,infix_around here]
    cases sep with
    | nil => rfl
    | cons d sep =>
      have rest := @ih [] (List.cons_ne_nil d sep) later
      rw [List.nil_append] at rest
      rw [rest]
      constructor
      · rintro (inA | inNone | inB)
        · exact .inl inA
        · exact .inl (inNone.trans List.nil_infix)
        · exact .inr inB
      · rintro (inA | inB)
        · exact .inl inA
        · exact .inr (.inr inB)

theorem infix_intercalate {sep : List α} (some_ : sep ≠ []) (absent : ∀ c ∈ sep, c ∉ needle) (visible : needle ≠ [])
    {parts : List (List α)} : needle <:+: sep.intercalate parts ↔ ∃ part ∈ parts, needle <:+: part := by
  induction parts with
  | nil => simp [List.infix_nil,visible]
  | cons part rest ih =>
    cases rest with
    | nil => simp
    | cons second rest =>
      rw [List.intercalate_cons_cons,List.append_assoc,infix_separated some_ absent,ih]
      simp only [List.exists_mem_cons_iff]

end

variable [DecidableEq α]

/-- The text through the end of its `n`-th line, and the rest. -/
def splitAfter (sep : α) : Nat → List α → List α × List α
  | 0, text => ([], text)
  | _ + 1, [] => ([], [])
  | n + 1, c :: rest =>
    let parts := splitAfter sep (if c = sep then n else n + 1) rest
    (c :: parts.1, parts.2)

section

variable {sep : α} {line last : List α} {lines : List (List α)}

theorem splitOn_closed (plain : ∀ line ∈ lines, sep ∉ line) (plainLast : sep ∉ last) :
    (closed sep lines ++ last).splitOn sep = lines ++ [last] := by
  induction lines with
  | nil => rw [closed_nil,List.nil_append,List.splitOn_eq_singleton plainLast,List.nil_append]
  | cons line rest ih =>
    obtain ⟨here, later⟩ := List.forall_mem_cons.mp plain
    rw [closed_cons,List.append_assoc,List.cons_append,List.splitOn_append_cons_self,List.splitOn_eq_singleton here,
      ih later]
    rfl

/-- Every text is closed lines and a last one. -/
theorem exists_closed (sep : α) (text : List α) : ∃ lines last, text = closed sep lines ++ last ∧
    (∀ line ∈ lines, sep ∉ line) ∧ sep ∉ last := by
  induction text with
  | nil => exact ⟨[], [], rfl, nofun, nofun⟩
  | cons c rest ih =>
    obtain ⟨lines, last, rfl, plain, plainLast⟩ := ih
    by_cases same : c = sep
    · subst same
      refine ⟨[] :: lines, last, rfl, ?_, plainLast⟩
      rintro line (_ | ⟨_, member⟩)
      · exact nofun
      · exact plain line member
    · have fresh (line : List α) (without : sep ∉ line) : sep ∉ c :: line := by
        rw [List.mem_cons,not_or]
        exact ⟨fun eq => same eq.symm, without⟩
      cases lines with
      | nil => exact ⟨[], c :: last, rfl, nofun, fresh last plainLast⟩
      | cons line lines =>
        obtain ⟨here, later⟩ := List.forall_mem_cons.mp plain
        exact ⟨(c :: line) :: lines, last, rfl, List.forall_mem_cons.mpr ⟨fresh line here, later⟩, plainLast⟩

theorem splitAfter_append (n : Nat) (text : List α) : (splitAfter sep n text).1 ++ (splitAfter sep n text).2 = text := by
  induction text generalizing n with
  | nil => cases n <;> rfl
  | cons c rest ih =>
    cases n with
    | zero => rfl
    | succ n => rw [splitAfter,List.cons_append,ih]

theorem splitAfter_line (plain : sep ∉ line) (n : Nat) (rest : List α) : splitAfter sep (n + 1) (line ++ sep :: rest) =
    (line ++ sep :: (splitAfter sep n rest).1, (splitAfter sep n rest).2) := by
  induction line with
  | nil => simp [splitAfter]
  | cons c line ih =>
    obtain ⟨other, without⟩ := not_or.mp (mt List.mem_cons.mpr plain)
    rw [List.cons_append,splitAfter,if_neg (fun same => other same.symm),ih without]
    rfl

theorem splitAfter_last (plain : sep ∉ last) (n : Nat) : splitAfter sep (n + 1) last = (last, []) := by
  induction last with
  | nil => rfl
  | cons c last ih =>
    obtain ⟨other, without⟩ := not_or.mp (mt List.mem_cons.mpr plain)
    rw [splitAfter,if_neg (fun same => other same.symm),ih without]

theorem splitAfter_closed (plain : ∀ line ∈ lines, sep ∉ line) (plainLast : sep ∉ last) (n : Nat) :
    splitAfter sep n (closed sep lines ++ last) =
      if n ≤ lines.length then (closed sep (lines.take n), closed sep (lines.drop n) ++ last)
      else (closed sep lines ++ last, []) := by
  induction lines generalizing n with
  | nil =>
    cases n with
    | zero => simp [splitAfter]
    | succ n => simp [splitAfter_last plainLast]
  | cons line rest ih =>
    obtain ⟨here, later⟩ := List.forall_mem_cons.mp plain
    cases n with
    | zero => simp [splitAfter]
    | succ n =>
      rw [closed_cons,List.append_assoc,List.cons_append,splitAfter_line here,ih later]
      simp only [List.length_cons,Nat.add_le_add_iff_right]
      split <;> simp

end

end Zaion.Lib
