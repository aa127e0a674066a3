import Mathlib.Data.List.Forall2

/-! Reading a checked computation backwards. A fallible operation is a chain of
loads and guards in `Except`; its success is the conjunction of the successes of
its links, which is what the rules below let `simp` unfold. -/
namespace Zaion.Lib

/-- A guard: the computation goes on when `c` holds and stops with `e` otherwise. -/
def ensure (c : Prop) [Decidable c] (e : ε) : Except ε Unit :=
  if c then .ok () else .error e

theorem ensure_ok_iff {c : Prop} [Decidable c] {e : ε} {u : Unit} :
    ensure c e = .ok u ↔ c := by
  unfold ensure; split <;> simp_all

theorem ensure_error_iff {c : Prop} [Decidable c] {e e' : ε} :
    ensure c e = .error e' ↔ ¬ c ∧ e = e' := by
  unfold ensure; split <;> simp_all

@[simp] theorem ensure_of {c : Prop} [Decidable c] {e : ε} (h : c) : ensure c e = .ok () :=
  if_pos h

theorem bind_ok_iff {x : Except ε α} {f : α → Except ε β} {r : β} :
    (x >>= f) = .ok r ↔ ∃ a, x = .ok a ∧ f a = .ok r := by
  cases x <;> simp [bind,Except.bind]

theorem check_bind_ok_iff {check : Except ε Unit} {next : Unit → Except ε α} {r : α} :
    (check >>= next) = .ok r ↔ check = .ok () ∧ next () = .ok r := by
  rw [bind_ok_iff]
  exact ⟨fun ⟨(), passed, rest⟩ => ⟨passed, rest⟩, fun both => ⟨(), both⟩⟩

theorem bind_error_iff {x : Except ε α} {f : α → Except ε β} {e : ε} :
    (x >>= f) = .error e ↔ x = .error e ∨ ∃ a, x = .ok a ∧ f a = .error e := by
  cases x <;> simp [bind,Except.bind]

theorem pure_ok_iff {a r : α} : (pure a : Except ε α) = .ok r ↔ a = r := by
  simp [pure,Except.pure]

@[simp] theorem ok_bind (a : α) (f : α → Except ε β) : (Except.ok a >>= f) = f a := rfl
@[simp] theorem error_bind (e : ε) (f : α → Except ε β) :
    (Except.error e >>= f) = .error e := rfl

theorem map_ok_iff {x : Except ε α} {f : α → β} {r : β} :
    (f <$> x) = .ok r ↔ ∃ a, x = .ok a ∧ f a = r := by
  cases x <;> simp [Functor.map,Except.map]

theorem mapError_ok_iff {x : Except ε α} {f : ε → ε'} {r : α} : x.mapError f = .ok r ↔ x = .ok r := by
  cases x <;> simp [Except.mapError]

/-- A missing value stops the computation. -/
def required (x : Option α) (e : ε) : Except ε α :=
  match x with
  | some a => .ok a
  | none => .error e

theorem required_ok_iff {x : Option α} {e : ε} {a : α} :
    required x e = .ok a ↔ x = some a := by
  cases x <;> simp [required]

@[simp] theorem required_some (a : α) (e : ε) : required (some a) e = .ok a := rfl
@[simp] theorem required_none (e : ε) : required (none : Option α) e = .error e := rfl

/-- Every element is processed in order; the first failure is the failure of the whole. -/
def mapAll (f : α → Except ε β) : List α → Except ε (List β)
  | [] => .ok []
  | a :: rest => do
    let b ← f a
    let bs ← mapAll f rest
    .ok (b :: bs)

theorem mapAll_ok_of {f : α → Except ε β} {g : α → β} {l : List α}
    (each : ∀ a ∈ l, f a = .ok (g a)) : mapAll f l = .ok (l.map g) := by
  induction l with
  | nil => rfl
  | cons a l ih =>
    simp [mapAll,each a (by simp),ih (fun b member => each b (by simp [member]))]

theorem mapAll_ok_iff {f : α → Except ε β} {l : List α} {r : List β} :
    mapAll f l = .ok r ↔ List.Forall₂ (fun a b => f a = .ok b) l r := by
  induction l generalizing r with
  | nil => cases r <;> simp [mapAll]
  | cons a l ih =>
    simp only [mapAll,bind_ok_iff,ih]
    constructor
    · rintro ⟨b, hb, bs, hbs, h⟩
      cases h
      exact .cons hb hbs
    · rintro (_ | ⟨hb, hbs⟩)
      exact ⟨_, hb, _, hbs, rfl⟩

/-- Every element is checked in order. -/
def checkAll (f : α → Except ε Unit) : List α → Except ε Unit
  | [] => .ok ()
  | a :: rest => do
    f a
    checkAll f rest

theorem checkAll_ok_iff {f : α → Except ε Unit} {l : List α} :
    checkAll f l = .ok () ↔ ∀ a ∈ l, f a = .ok () := by
  induction l with
  | nil => simp [checkAll]
  | cons a l ih =>
    simp only [checkAll,bind_ok_iff,ih,List.forall_mem_cons]
    constructor
    · rintro ⟨_, first, rest⟩
      exact ⟨first, rest⟩
    · rintro ⟨first, rest⟩
      exact ⟨(), first, rest⟩

theorem forall₂_of_forall_exists {R : α → β → Prop} {l : List α} (each : ∀ a ∈ l, ∃ b, R a b) :
    ∃ r, List.Forall₂ R l r := by
  induction l with
  | nil => exact ⟨[], .nil⟩
  | cons a l ih =>
    obtain ⟨b, hb⟩ := each a List.mem_cons_self
    obtain ⟨bs, hbs⟩ := ih (fun c member => each c (List.mem_cons_of_mem _ member))
    exact ⟨b :: bs, .cons hb hbs⟩

theorem forall₂_left {R : α → β → Prop} {l : List α} {r : List β} (h : List.Forall₂ R l r)
    {a : α} (member : a ∈ l) : ∃ b ∈ r, R a b := by
  induction h with
  | nil => cases member
  | cons hb _ ih =>
    rcases List.mem_cons.mp member with rfl | member
    · exact ⟨_, List.mem_cons_self, hb⟩
    · obtain ⟨b, later, related⟩ := ih member
      exact ⟨b, List.mem_cons_of_mem _ later, related⟩

theorem forall₂_right {R : α → β → Prop} {l : List α} {r : List β} (h : List.Forall₂ R l r)
    {b : β} (member : b ∈ r) : ∃ a ∈ l, R a b := forall₂_left h.flip member

/-- The computation does not stop with an error of a kind. -/
def Avoids (bad : ε → Prop) (x : Except ε α) : Prop := ∀ e, x = .error e → ¬ bad e

section

variable {bad : ε → Prop}

@[simp] theorem avoids_ok (a : α) : Avoids bad (.ok a : Except ε α) := by
  intro e absurd
  cases absurd

@[simp] theorem avoids_error {e : ε} : Avoids bad (.error e : Except ε α) ↔ ¬ bad e := by
  simp [Avoids]

@[simp] theorem avoids_none (x : Except ε α) : Avoids (fun _ => False) x := fun _ _ => id

theorem avoids_bind_iff {x : Except ε α} {f : α → Except ε β} :
    Avoids bad (x >>= f) ↔ Avoids bad x ∧ ∀ a, x = .ok a → Avoids bad (f a) := by
  cases x <;> simp

@[simp] theorem avoids_map {x : Except ε α} {f : α → β} : Avoids bad (f <$> x) ↔ Avoids bad x := by
  cases x <;> simp [Functor.map,Except.map]

theorem avoids_mapError {x : Except ε' α} {f : ε' → ε} :
    Avoids bad (x.mapError f) ↔ Avoids (fun e => bad (f e)) x := by
  cases x <;> simp [Except.mapError]

@[simp] theorem avoids_ensure {c : Prop} [Decidable c] {e : ε} : Avoids bad (ensure c e) ↔ (bad e → c) := by
  by_cases h : c
  · simp [h]
  · simp [ensure,h]

@[simp] theorem avoids_required {x : Option α} {e : ε} :
    Avoids bad (required x e) ↔ (bad e → x.isSome = true) := by
  cases x <;> simp

theorem avoids_checkAll {f : α → Except ε Unit} {l : List α} (each : ∀ a ∈ l, Avoids bad (f a)) :
    Avoids bad (checkAll f l) := by
  induction l with
  | nil => simp [checkAll]
  | cons a l ih =>
    rw [checkAll,avoids_bind_iff]
    exact ⟨each a List.mem_cons_self, fun _ _ => ih (fun b member => each b (List.mem_cons_of_mem _ member))⟩

end

end Zaion.Lib
