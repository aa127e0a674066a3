import Mathlib.Data.List.Basic
import Mathlib.Data.List.Induction

/-! Runs of a step function that may refuse a step, the states a run visits, and rules for
what holds in all of them: an invariant every step keeps, one that steps meeting a condition
keep, and a condition that is exactly what keeps a run out of bad states. Steps may be weighed,
and the weight of a run compared with what it uses up or adds to. -/
namespace Zaion.Lib

variable {σ α : Type} {step : σ → α → Option σ} {start s t : σ} {acts : List α} {a : α}

/-- The state after a run; `none` when one of its steps is refused. -/
def steps (step : σ → α → Option σ) (start : σ) : List α → Option σ
  | [] => some start
  | a :: rest => (step start a).bind (fun next => steps step next rest)

theorem steps_append (step : σ → α → Option σ) (start : σ) (first second : List α) :
    steps step start (first ++ second) = (steps step start first).bind (fun s => steps step s second) := by
  induction first generalizing start with
  | nil => rfl
  | cons a rest ih =>
    rw [List.cons_append,steps,steps,Option.bind_assoc]
    congr 1
    funext next
    exact ih next

theorem steps_concat (step : σ → α → Option σ) (start : σ) (acts : List α) (a : α) :
    steps step start (acts ++ [a]) = (steps step start acts).bind (fun s => step s a) := by
  rw [steps_append]
  congr 1
  funext s
  rw [steps]
  cases step s a <;> rfl

theorem steps_concat_some (run : steps step start (acts ++ [a]) = some t) :
    ∃ s, steps step start acts = some s ∧ step s a = some t := by
  rw [steps_concat] at run
  exact Option.bind_eq_some_iff.mp run

/-- The states on the way, the first and the last included. -/
def Visits (step : σ → α → Option σ) (start : σ) (acts : List α) (s : σ) : Prop :=
  ∃ before after, acts = before ++ after ∧ steps step start before = some s

theorem visits_nil : Visits step start [] s ↔ s = start := by
  constructor
  · rintro ⟨before, after, split, here⟩
    obtain ⟨rfl, rfl⟩ := List.append_eq_nil_iff.mp split.symm
    exact (Option.some.inj here).symm
  · rintro rfl
    exact ⟨[], [], rfl, rfl⟩

theorem visits_last (run : steps step start acts = some s) : Visits step start acts s :=
  ⟨acts, [], (List.append_nil acts).symm, run⟩

theorem visits_concat (run : steps step start (acts ++ [a]) = some t) :
    Visits step start (acts ++ [a]) s ↔ Visits step start acts s ∨ s = t := by
  constructor
  · rintro ⟨before, after, split, here⟩
    rcases List.eq_nil_or_concat after with rfl | ⟨rest, last, rfl⟩
    · rw [List.append_nil] at split
      rw [← split,run] at here
      exact .inr (Option.some.inj here).symm
    · rw [List.concat_eq_append,← List.append_assoc] at split
      exact .inl ⟨before, rest, (List.append_inj' split rfl).1, here⟩
  · rintro (⟨before, after, rfl, here⟩ | rfl)
    · exact ⟨before, after ++ [a], List.append_assoc .., here⟩
    · exact visits_last run

/-- Every step of the run is taken in a state where it meets the condition. -/
def Meets (step : σ → α → Option σ) (start : σ) (condition : σ → α → Prop) (acts : List α) : Prop :=
  ∀ before a after s, acts = before ++ a :: after → steps step start before = some s → condition s a

section

variable {condition : σ → α → Prop} {good : σ → Prop}

theorem meets_nil : Meets step start condition [] := by
  intro before a after s split
  cases before <;> cases split

theorem meets_concat (run : steps step start acts = some s) :
    Meets step start condition (acts ++ [a]) ↔ Meets step start condition acts ∧ condition s a := by
  constructor
  · intro meets
    refine ⟨?_, meets acts a [] s rfl run⟩
    intro before b after s' split here
    exact meets before b (after ++ [a]) s' (by rw [split,List.append_assoc,List.cons_append]) here
  · rintro ⟨meets, last⟩ before b after s' split here
    rcases List.eq_nil_or_concat after with rfl | ⟨rest, c, rfl⟩
    · obtain ⟨rfl, same⟩ := List.append_inj' split rfl
      obtain rfl := (List.cons.inj same).1
      rw [run] at here
      exact Option.some.inj here ▸ last
    · rw [List.concat_eq_append,← List.cons_append,← List.append_assoc] at split
      exact meets before b rest s' (List.append_inj' split rfl).1 here

theorem meets_cons {next : σ} (taken : step start a = some next) (here : condition start a)
    (rest : Meets step next condition acts) : Meets step start condition (a :: acts) := by
  intro before b after s split run
  cases before with
  | nil =>
    obtain ⟨rfl, rfl⟩ := List.cons.inj split
    exact Option.some.inj run ▸ here
  | cons first before =>
    obtain ⟨rfl, tail⟩ := List.cons.inj split
    rw [steps,taken] at run
    exact rest before b after s tail run

/-- The condition checked step by step. -/
def meetsCheck (step : σ → α → Option σ) (condition : σ → α → Prop) [∀ s a, Decidable (condition s a)] (s : σ) :
    List α → Bool
  | [] => true
  | a :: rest =>
    match step s a with
    | none => false
    | some next => decide (condition s a) && meetsCheck step condition next rest

theorem meets_of_check [∀ s a, Decidable (condition s a)] (checked : meetsCheck step condition start acts = true) :
    Meets step start condition acts := by
  induction acts generalizing start with
  | nil => exact meets_nil
  | cons a rest ih =>
    unfold meetsCheck at checked
    split at checked
    · cases checked
    · rename_i next taken
      obtain ⟨here, later⟩ := Bool.and_eq_true_iff.mp checked
      exact meets_cons taken (of_decide_eq_true here) (ih later)

/-- What steps that meet the condition keep holds after a run of such steps. -/
theorem Meets.invariant (meets : Meets step start condition acts) (run : steps step start acts = some t)
    (first : good start) (keeps : ∀ s a s', good s → condition s a → step s a = some s' → good s') : good t := by
  induction acts using List.reverseRecOn generalizing t with
  | nil => exact Option.some.inj run ▸ first
  | append_singleton acts a ih =>
    obtain ⟨s, before, last⟩ := steps_concat_some run
    obtain ⟨earlier, here⟩ := (meets_concat before).mp meets
    exact keeps s a t (ih earlier before) here last

theorem Meets.left {first second : List α} (meets : Meets step start condition (first ++ second)) :
    Meets step start condition first := by
  intro before a after s split run
  exact meets before a (after ++ second) s (by rw [split,List.append_assoc,List.cons_append]) run

/-- .. and in every state on the way. -/
theorem Meets.visited (meets : Meets step start condition acts) (first : good start)
    (keeps : ∀ s a s', good s → condition s a → step s a = some s' → good s') :
    ∀ s, Visits step start acts s → good s := by
  rintro s ⟨before, after, rfl, run⟩
  exact meets.left.invariant run first keeps

/-- What every step keeps holds after every run. -/
theorem steps_invariant (run : steps step start acts = some t) (first : good start)
    (keeps : ∀ s a s', good s → step s a = some s' → good s') : good t := by
  have meets : Meets step start (fun _ _ => True) acts := fun _ _ _ _ _ _ => trivial
  exact meets.invariant run first (fun s a s' here _ taken => keeps s a s' here taken)

/-- A run stays in good states exactly when its steps meet a condition that says, in a good
state, whether the next one is good. The invariant restricts to states that occur. -/
theorem visits_good_iff {inv : σ → Prop} (run : steps step start acts = some t) (first : inv start) (fine : good start)
    (keeps : ∀ s a s', inv s → step s a = some s' → inv s')
    (exact_ : ∀ s a s', inv s → good s → step s a = some s' → (good s' ↔ condition s a)) :
    (∀ s, Visits step start acts s → good s) ↔ Meets step start condition acts := by
  induction acts using List.reverseRecOn generalizing t with
  | nil =>
    refine ⟨fun _ => meets_nil, ?_⟩
    intro _ s visited
    rw [visits_nil.mp visited]
    exact fine
  | append_singleton acts a ih =>
    obtain ⟨s, before, last⟩ := steps_concat_some run
    have known := steps_invariant before first keeps
    rw [meets_concat before,← ih before]
    constructor
    · intro all
      have earlier (u : σ) (visited : Visits step start acts u) : good u :=
        all u ((visits_concat run).mpr (.inl visited))
      refine ⟨earlier, ?_⟩
      exact (exact_ s a t known (earlier s (visits_last before)) last).mp (all t (visits_last run))
    · rintro ⟨earlier, here⟩ u visited
      rcases (visits_concat run).mp visited with old | rfl
      · exact earlier u old
      · exact (exact_ s a u known (earlier s (visits_last before)) last).mpr here

end

/-- What the steps of a run weigh together. -/
def weighed (step : σ → α → Option σ) (weight : σ → α → Nat) (start : σ) : List α → Nat
  | [] => 0
  | a :: rest => weight start a + (step start a).elim 0 (fun next => weighed step weight next rest)

section

variable {weight : σ → α → Nat} {inv : σ → Prop} {measure : σ → Nat}

/-- Steps that are paid for out of a measure cannot weigh more than there was of it. -/
theorem weighed_le (run : steps step start acts = some t) (first : inv start) (keeps : ∀ s a s', inv s → step s a = some s' → inv s')
    (pays : ∀ s a s', inv s → step s a = some s' → weight s a + measure s' ≤ measure s) :
    weighed step weight start acts + measure t ≤ measure start := by
  induction acts generalizing start with
  | nil => exact Option.some.inj run ▸ Nat.le_of_eq (Nat.zero_add _)
  | cons a rest ih =>
    obtain ⟨next, taken, run⟩ := Option.bind_eq_some_iff.mp run
    have later := ih run (keeps start a next first taken)
    have now := pays start a next first taken
    rw [weighed,taken,Option.elim_some]
    omega

/-- A measure that grows by what each step weighs grows by what the run weighs. -/
theorem weighed_eq (run : steps step start acts = some t) (first : inv start) (keeps : ∀ s a s', inv s → step s a = some s' → inv s')
    (gains : ∀ s a s', inv s → step s a = some s' → measure s' = measure s + weight s a) :
    measure t = measure start + weighed step weight start acts := by
  induction acts generalizing start with
  | nil => exact Option.some.inj run ▸ rfl
  | cons a rest ih =>
    obtain ⟨next, taken, run⟩ := Option.bind_eq_some_iff.mp run
    have later := ih run (keeps start a next first taken)
    have now := gains start a next first taken
    rw [weighed,taken,Option.elim_some]
    omega

end

end Zaion.Lib
