import Mathlib.Data.List.Basic

/-! Properly nested sequences of openers and closers, the stack that recognises them, and what counting one kind of
them alone can tell. -/
namespace Zaion.Lib

variable {α : Type}

/-- `partner` gives an opener its closer. -/
inductive Nested (partner : α → Option α) : List α → Prop
  | nil : Nested partner []
  | wrap {o c : α} {inner rest : List α} (pair : partner o = some c) (inside : Nested partner inner)
      (after : Nested partner rest) : Nested partner (o :: (inner ++ c :: rest))

section

variable [DecidableEq α]

/-- With the closers awaited on a stack. -/
def closes (partner : α → Option α) : List α → List α → Bool
  | stack, [] => stack.isEmpty
  | stack, x :: rest =>
    match partner x, stack with
    | some c, stack => closes partner (c :: stack) rest
    | none, c :: below => decide (x = c) && closes partner below rest
    | none, [] => false

/-- One kind alone, counted up and down and never below zero. -/
def tally (o c : α) : Nat → List α → Option Nat
  | n, [] => some n
  | n, x :: rest =>
    if x = o then tally o c (n + 1) rest
    else if x = c then
      match n with
      | 0 => none
      | n + 1 => tally o c n rest
    else tally o c n rest

/-- Each kind is balanced on its own. -/
def EachBalanced (partner : α → Option α) (s : List α) : Prop :=
  ∀ o c, partner o = some c → tally o c 0 s = some 0

end

/-- What is left to come: the closers awaited, each after a nested sequence, and one at the end. -/
def Awaits (partner : α → Option α) : List α → List α → Prop
  | [], s => Nested partner s
  | c :: below, s => ∃ inner rest, s = inner ++ c :: rest ∧ Nested partner inner ∧ Awaits partner below rest

section

variable {partner : α → Option α} {s t stack : List α} {o c : α}

theorem Awaits.wrap (pair : partner o = some c) (inside : Nested partner s) (after : Awaits partner stack t) :
    Awaits partner stack (o :: (s ++ c :: t)) := by
  cases stack with
  | nil => exact .wrap pair inside after
  | cons d below =>
    obtain ⟨inner, rest, rfl, nested, later⟩ := after
    exact ⟨o :: (s ++ c :: inner), rest, by simp, .wrap pair inside nested, later⟩

variable [DecidableEq α]

theorem closes_opener (pair : partner o = some c) : closes partner stack (o :: s) = closes partner (c :: stack) s := by
  simp [closes,pair]

theorem closes_closer (closer : partner c = none) :
    closes partner (o :: stack) (c :: s) = (decide (c = o) && closes partner stack s) := by
  simp [closes,closer]

theorem tally_opener (n : Nat) : tally o c n (o :: s) = tally o c (n + 1) s := by simp [tally]

theorem tally_closer (apart : c ≠ o) (n : Nat) : tally o c (n + 1) (c :: s) = tally o c n s := by simp [tally,apart]

theorem tally_other {x : α} (first : x ≠ o) (second : x ≠ c) (n : Nat) : tally o c n (x :: s) = tally o c n s := by
  simp [tally,first,second]

theorem tally_append (n : Nat) (s t : List α) : tally o c n (s ++ t) = (tally o c n s).bind fun m => tally o c m t := by
  induction s generalizing n with
  | nil => rfl
  | cons x rest ih =>
    rw [List.cons_append]
    by_cases opener : x = o
    · subst opener
      rw [tally_opener,tally_opener,ih]
    · by_cases closer : x = c
      · subst closer
        cases n with
        | zero => simp [tally,opener]
        | succ n => rw [tally_closer opener,tally_closer opener,ih]
      · rw [tally_other opener closer,tally_other opener closer,ih]

theorem awaits_of_closes (closed : closes partner stack s = true) : Awaits partner stack s := by
  induction s generalizing stack with
  | nil =>
    cases stack with
    | nil => exact .nil
    | cons c below => cases closed
  | cons x rest ih =>
    cases own : partner x with
    | some c =>
      rw [closes_opener own] at closed
      obtain ⟨inner, later, rfl, inside, after⟩ := ih closed
      exact .wrap own inside after
    | none =>
      cases stack with
      | nil =>
        simp [closes,own] at closed
      | cons c below =>
        rw [closes_closer own] at closed
        obtain ⟨same, later⟩ := Bool.and_eq_true_iff.mp closed
        obtain rfl := of_decide_eq_true same
        exact ⟨[], rest, rfl, .nil, ih later⟩

/-- A nested sequence leaves the stack as it was. -/
theorem Nested.closes_append (closers : ∀ o c, partner o = some c → partner c = none) (nested : Nested partner s)
    (stack t : List α) : closes partner stack (s ++ t) = closes partner stack t := by
  induction nested generalizing stack t with
  | nil => rfl
  | @wrap o c inner rest pair inside after ihInside ihAfter =>
    rw [List.cons_append,List.append_assoc,List.cons_append,closes_opener pair,ihInside,
      closes_closer (closers o c pair),decide_eq_true rfl,Bool.true_and,ihAfter]

theorem nested_iff (closers : ∀ o c, partner o = some c → partner c = none) :
    Nested partner s ↔ closes partner [] s = true := by
  constructor
  · intro nested
    have all := nested.closes_append closers [] []
    rwa [List.append_nil] at all
  · exact awaits_of_closes

/-- Nor does it change the count of a kind. -/
theorem Nested.tally_append (closers : ∀ o c, partner o = some c → partner c = none) (pair : partner o = some c)
    (own : ∀ o', partner o' = some c → o' = o) (nested : Nested partner s) (n : Nat) (t : List α) :
    tally o c n (s ++ t) = tally o c n t := by
  have apart : c ≠ o := by
    rintro rfl
    rw [closers c c pair] at pair
    cases pair
  induction nested generalizing n t with
  | nil => rfl
  | @wrap o' c' inner rest pair' inside after ihInside ihAfter =>
    rw [List.cons_append,List.append_assoc,List.cons_append]
    by_cases same : o' = o
    · subst same
      obtain rfl : c = c' := Option.some.inj (pair.symm.trans pair')
      rw [tally_opener,ihInside,tally_closer apart,ihAfter]
    · have opener : o' ≠ c := by
        rintro rfl
        rw [closers o o' pair] at pair'
        cases pair'
      have closer : c' ≠ c := by
        rintro rfl
        exact same (own o' pair')
      have other : c' ≠ o := by
        rintro rfl
        rw [closers o' c' pair'] at pair
        cases pair
      rw [tally_other same opener,ihInside,tally_other other closer,ihAfter]

theorem Nested.eachBalanced (closers : ∀ o c, partner o = some c → partner c = none)
    (own : ∀ o o' c, partner o = some c → partner o' = some c → o' = o) (nested : Nested partner s) :
    EachBalanced partner s := by
  intro o c pair
  have counted := nested.tally_append closers pair (fun o' pair' => own o o' c pair pair') 0 []
  rwa [List.append_nil] at counted

end

end Zaion.Lib
