import Mathlib.Data.List.Basic
import Mathlib.Data.List.Infix

/-! Occurrences of one list in another: counted and replaced from the left without overlap, as
string searches do, and by position, where they may overlap. -/
namespace Zaion.Lib

variable {α : Type} [DecidableEq α]

/-- Occurrences from the left, the next one after the end of the last. -/
def matchesFrom (old : List α) : Nat → List α → Nat
  | _, [] => 0
  | skip + 1, _ :: rest => matchesFrom old skip rest
  | 0, c :: rest => if old <+: c :: rest then matchesFrom old (old.length - 1) rest + 1 else matchesFrom old 0 rest

/-- The empty list occurs before each element and at the end. -/
def matchCount (old text : List α) : Nat := if old = [] then text.length + 1 else matchesFrom old 0 text

def replaceFirst (old new : List α) : List α → List α
  | [] => if old = [] then new else []
  | c :: rest => if old <+: c :: rest then new ++ (c :: rest).drop old.length else c :: replaceFirst old new rest

def replaceFrom (old new : List α) : Nat → List α → List α
  | _, [] => []
  | skip + 1, _ :: rest => replaceFrom old new skip rest
  | 0, c :: rest =>
    if old <+: c :: rest then new ++ replaceFrom old new (old.length - 1) rest else c :: replaceFrom old new 0 rest

def replaceAll (old new text : List α) : List α :=
  if old = [] then new ++ text.flatMap (fun c => c :: new) else replaceFrom old new 0 text

def OccursAt (old text : List α) (i : Nat) : Prop := i ≤ text.length ∧ old <+: text.drop i

instance (old text : List α) (i : Nat) : Decidable (OccursAt old text i) := inferInstanceAs (Decidable (_ ∧ _))

/-- Two occurrences share a part. -/
def overlapping (old text : List α) : Bool :=
  (List.range (text.length + 1)).any (fun i => (List.range (text.length + 1)).any (fun j =>
    decide (i < j ∧ j < i + old.length ∧ OccursAt old text i ∧ OccursAt old text j)))

section

variable {old text : List α}

theorem overlapping_of {i j : Nat} (less : i < j) (near : j < i + old.length) (first : OccursAt old text i)
    (second : OccursAt old text j) : overlapping old text = true := by
  refine List.any_eq_true.mpr ⟨i, List.mem_range.mpr (Nat.lt_succ_of_le first.1), ?_⟩
  refine List.any_eq_true.mpr ⟨j, List.mem_range.mpr (Nat.lt_succ_of_le second.1), ?_⟩
  exact decide_eq_true ⟨less, near, first, second⟩

theorem none_of_matchesFrom (nonempty : old ≠ []) {skip : Nat} (none_ : matchesFrom old skip text = 0) :
    ∀ i, skip ≤ i → ¬ OccursAt old text i := by
  induction text generalizing skip with
  | nil =>
    rintro i _ ⟨_, part⟩
    rw [List.drop_nil] at part
    exact nonempty (List.prefix_nil.mp part)
  | cons c rest ih =>
    intro i late occurs
    -- An occurrence past the head is one in the tail.
    have tail (k : Nat) (occurs : OccursAt old (c :: rest) (k + 1)) : OccursAt old rest k :=
      ⟨by simpa using occurs.1, by simpa using occurs.2⟩
    cases skip with
    | zero =>
      rw [matchesFrom] at none_
      by_cases here : old <+: c :: rest
      · rw [if_pos here] at none_
        omega
      · rw [if_neg here] at none_
        cases i with
        | zero => exact here occurs.2
        | succ k => exact ih none_ k (Nat.zero_le k) (tail k occurs)
    | succ skip =>
      rw [matchesFrom] at none_
      obtain ⟨k, rfl⟩ : ∃ k, i = k + 1 := ⟨i - 1, by omega⟩
      exact ih none_ k (by omega) (tail k occurs)

/-- A single match: the text around it, nothing before it and nothing after its end. -/
theorem split_of_matchesFrom (nonempty : old ≠ []) (one : matchesFrom old 0 text = 1) (new : List α) :
    ∃ before after, text = before ++ old ++ after ∧ replaceFirst old new text = before ++ new ++ after ∧
      ∀ i, OccursAt old text i → before.length ≤ i ∧ i < before.length + old.length := by
  induction text with
  | nil => cases one
  | cons c rest ih =>
    rw [matchesFrom] at one
    by_cases here : old <+: c :: rest
    · rw [if_pos here] at one
      obtain ⟨after, split⟩ := here
      refine ⟨[], after, by rw [List.nil_append,split], ?_, ?_⟩
      · rw [replaceFirst,if_pos ⟨after, split⟩,← split,List.drop_left,List.nil_append]
      · intro i occurs
        refine ⟨Nat.zero_le i, ?_⟩
        by_contra late
        rw [List.length_nil,Nat.zero_add,not_lt] at late
        have positive : 0 < old.length := List.length_pos_iff.mpr nonempty
        obtain ⟨k, rfl⟩ : ∃ k, i = k + 1 := ⟨i - 1, by omega⟩
        refine none_of_matchesFrom nonempty (Nat.succ_injective one) k (by omega) ⟨?_, ?_⟩
        · simpa using occurs.1
        · simpa using occurs.2
    · rw [if_neg here] at one
      obtain ⟨before, after, split, replaced, where_⟩ := ih one
      refine ⟨c :: before, after, by rw [split]; rfl, ?_, ?_⟩
      · rw [replaceFirst,if_neg here,replaced]
        rfl
      · intro i occurs
        cases i with
        | zero => exact absurd occurs.2 here
        | succ k =>
          have inside := where_ k ⟨by simpa using occurs.1, by simpa using occurs.2⟩
          rw [List.length_cons]
          omega

/-- A single match that nothing overlaps is the only occurrence. -/
theorem unique_of_matchCount (one : matchCount old text = 1) (apart : overlapping old text = false) (new : List α) :
    ∃ before after, text = before ++ old ++ after ∧ replaceFirst old new text = before ++ new ++ after ∧
      ∀ i, OccursAt old text i ↔ i = before.length := by
  unfold matchCount at one
  by_cases empty : old = []
  · rw [if_pos empty] at one
    have nothing : text = [] := List.length_eq_zero_iff.mp (Nat.succ_injective one)
    subst empty nothing
    refine ⟨[], [], rfl, by simp [replaceFirst], ?_⟩
    intro i
    constructor
    · intro occurs
      simpa using occurs.1
    · rintro rfl
      exact ⟨le_refl 0, [], rfl⟩
  · rw [if_neg empty] at one
    obtain ⟨before, after, split, replaced, inside⟩ := split_of_matchesFrom empty one new
    have here : OccursAt old text before.length := by
      refine ⟨by rw [split]; simp, ?_⟩
      rw [split,List.append_assoc,List.drop_left]
      exact List.prefix_append old after
    refine ⟨before, after, split, replaced, ?_⟩
    intro i
    refine ⟨?_, fun same => same ▸ here⟩
    intro occurs
    by_contra other
    have range := inside i occurs
    rw [overlapping_of (by omega) range.2 here occurs] at apart
    cases apart

end

/-! Rules for replacing every occurrence of a list that is not empty. -/

section

variable {old new text rest : List α} {c : α}

@[simp] theorem replaceAll_nil (some_ : old ≠ []) : replaceAll old new [] = [] := by
  simp [replaceAll,some_,replaceFrom]

theorem replaceFrom_skip (skip : Nat) (text : List α) : replaceFrom old new skip text = replaceFrom old new 0 (text.drop skip) := by
  induction text generalizing skip with
  | nil => simp [replaceFrom]
  | cons c rest ih =>
    cases skip with
    | zero => rfl
    | succ skip => rw [replaceFrom,List.drop_succ_cons,ih]

theorem replaceAll_match (some_ : old ≠ []) (rest : List α) :
    replaceAll old new (old ++ rest) = new ++ replaceAll old new rest := by
  obtain ⟨c, tail, rfl⟩ := List.exists_cons_of_ne_nil some_
  have here : c :: tail <+: c :: (tail ++ rest) := List.prefix_append (c :: tail) rest
  simp only [replaceAll,if_neg some_,List.cons_append,replaceFrom]
  rw [if_pos here,replaceFrom_skip]
  simp

theorem replaceAll_miss (some_ : old ≠ []) (other : ¬ old <+: c :: rest) :
    replaceAll old new (c :: rest) = c :: replaceAll old new rest := by
  simp [replaceAll,some_,replaceFrom,other]

/-- A text is empty, begins with an occurrence, or with an element to pass over. -/
@[elab_as_elim] theorem occurrence_induction {motive : List α → Prop} (some_ : old ≠ []) (text : List α) (nil : motive [])
    (found : ∀ rest, motive rest → motive (old ++ rest))
    (passed : ∀ c rest, ¬ old <+: c :: rest → motive rest → motive (c :: rest)) : motive text := by
  induction size : text.length using Nat.strong_induction_on generalizing text with
  | _ n ih =>
    cases text with
    | nil => exact nil
    | cons c rest =>
      by_cases here : old <+: c :: rest
      · obtain ⟨after, split⟩ := here
        have positive := List.length_pos_iff.mpr some_
        have sizes := congrArg List.length split
        rw [List.length_append] at sizes
        rw [← split]
        exact found after (ih after.length (by omega) after rfl)
      · exact passed c rest here (ih rest.length (by simp [← size]) rest rfl)

theorem replaceAll_self (some_ : old ≠ []) (text : List α) : replaceAll old old text = text := by
  induction text using occurrence_induction some_ with
  | nil => exact replaceAll_nil some_
  | found rest ih => rw [replaceAll_match some_,ih]
  | passed c rest other ih => rw [replaceAll_miss some_ other,ih]

theorem replaceAll_absent (some_ : old ≠ []) (absent : ¬ old <:+: text) : replaceAll old new text = text := by
  induction text using occurrence_induction some_ with
  | nil => exact replaceAll_nil some_
  | found rest ih => exact absurd (List.prefix_append old rest).isInfix absent
  | passed c rest other ih =>
    rw [replaceAll_miss some_ other,ih (fun inside => absent (inside.trans (List.suffix_cons c rest).isInfix))]

omit [DecidableEq α] in
theorem prefix_of_foreign {before after : List α} (foreign : c ∉ old) (start : old <+: before ++ c :: after) :
    old <+: before := by
  by_cases short : old.length ≤ before.length
  · exact List.prefix_of_prefix_length_le start (List.prefix_append _ _) short
  · have reach : before ++ [c] <+: before ++ c :: after := by simp
    have inside : before ++ [c] <+: old := List.prefix_of_prefix_length_le reach start (by simp; omega)
    exact absurd (inside.subset (by simp)) foreign

/-- An element that the list replaced has not keeps the texts beside it apart. -/
theorem replaceAll_break (some_ : old ≠ []) (foreign : c ∉ old) (before after : List α) :
    replaceAll old new (before ++ c :: after) = replaceAll old new before ++ c :: replaceAll old new after := by
  have outside : ¬ old <+: c :: after := by
    rintro ⟨more, split⟩
    obtain ⟨d, tail, rfl⟩ := List.exists_cons_of_ne_nil some_
    exact foreign ((List.cons.inj split).1 ▸ List.mem_cons_self)
  induction before using occurrence_induction some_ with
  | nil => rw [List.nil_append,replaceAll_miss some_ outside,replaceAll_nil some_,List.nil_append]
  | found rest ih => rw [List.append_assoc,replaceAll_match some_,replaceAll_match some_,ih,List.append_assoc]
  | passed d rest other ih =>
    have still : ¬ old <+: d :: (rest ++ c :: after) := fun start => other (prefix_of_foreign foreign start)
    rw [List.cons_append,replaceAll_miss some_ still,replaceAll_miss some_ other,ih,List.cons_append]

theorem infix_replaceAll (some_ : old ≠ []) (occurs : old <:+: text) : new <:+: replaceAll old new text := by
  induction text using occurrence_induction some_ with
  | nil => exact absurd (List.infix_nil.mp occurs) some_
  | found rest ih =>
    rw [replaceAll_match some_]
    exact (List.prefix_append new _).isInfix
  | passed c rest other ih =>
    rw [replaceAll_miss some_ other]
    exact (ih ((List.infix_cons_iff.mp occurs).resolve_left other)).trans (List.suffix_cons c _).isInfix

/-- Adding to each occurrence makes a text with one longer. -/
theorem length_replaceAll (some_ : old ≠ []) (more text : List α) :
    text.length ≤ (replaceAll old (old ++ more) text).length ∧
      (old <:+: text → text.length + more.length ≤ (replaceAll old (old ++ more) text).length) := by
  induction text using occurrence_induction some_ with
  | nil => exact ⟨Nat.zero_le _, fun occurs => absurd (List.infix_nil.mp occurs) some_⟩
  | found rest ih =>
    obtain ⟨longer, -⟩ := ih
    rw [replaceAll_match some_]
    simp only [List.length_append]
    constructor
    · omega
    · intro _
      omega
  | passed c rest other ih =>
    obtain ⟨longer, occurring⟩ := ih
    rw [replaceAll_miss some_ other]
    simp only [List.length_cons]
    refine ⟨by omega, ?_⟩
    intro occurs
    have inner := occurring ((List.infix_cons_iff.mp occurs).resolve_left other)
    omega

theorem prefix_of_replaceAll (some_ : old ≠ []) {part : List α} (foreign : c ∉ part)
    (start : part <+: replaceAll old [c] text) : part <+: text := by
  induction text using occurrence_induction some_ generalizing part with
  | nil => rwa [replaceAll_nil some_] at start
  | found rest ih =>
    rw [replaceAll_match some_] at start
    cases part with
    | nil => exact List.nil_prefix
    | cons d part => exact absurd ((List.cons_prefix_cons.mp start).1 ▸ List.mem_cons_self) foreign
  | passed d rest other ih =>
    rw [replaceAll_miss some_ other] at start
    cases part with
    | nil => exact List.nil_prefix
    | cons e part =>
      obtain ⟨rfl, later⟩ := List.cons_prefix_cons.mp start
      exact List.cons_prefix_cons.mpr ⟨rfl, ih (fun member => foreign (List.mem_cons_of_mem _ member)) later⟩

/-- What was replaced by a foreign element occurs no more. -/
theorem not_infix_replaceAll (some_ : old ≠ []) (foreign : c ∉ old) (text : List α) :
    ¬ old <:+: replaceAll old [c] text := by
  induction text using occurrence_induction some_ with
  | nil =>
    rw [replaceAll_nil some_,List.infix_nil]
    exact some_
  | found rest ih =>
    rw [replaceAll_match some_,List.singleton_append,List.infix_cons_iff]
    rintro (start | later)
    · obtain ⟨d, tail, rfl⟩ := List.exists_cons_of_ne_nil some_
      exact foreign ((List.cons_prefix_cons.mp start).1 ▸ List.mem_cons_self)
    · exact ih later
  | passed d rest other ih =>
    have same : replaceAll old [c] (d :: rest) = d :: replaceAll old [c] rest := replaceAll_miss some_ other
    rw [same,List.infix_cons_iff]
    rintro (start | later)
    · exact other (prefix_of_replaceAll some_ foreign (same ▸ start))
    · exact ih later

end

end Zaion.Lib
