import Mathlib.Data.List.Sort
import Mathlib.Data.List.Nodup
import Mathlib.Data.List.Range
import Zaion.Lib.Chain

/-! Many chains in one list. The entries of a group form a chain of their own; a walk in the
order of groups starts again at the first position wherever the group changes. -/
namespace Zaion.Lib

section

variable {α γ H : Type} [LinearOrder γ] (group : α → γ) (k : γ → Link α H) (start : H)

/-- Position and digest expected of `a` behind an entry of group `active`. -/
def expected (active : γ) (seq : Int) (prev : H) (a : α) : Int × H :=
  if group a = active then (seq, prev) else (0, start)

def GroupChained : γ → Int → H → List α → Prop
  | _, _, _, [] => True
  | active, seq, prev, a :: rest =>
    (k (group a)).seq a = (expected group start active seq prev a).1 ∧
    (k (group a)).prev a = (expected group start active seq prev a).2 ∧
    GroupChained (group a) ((expected group start active seq prev a).1 + 1) ((k (group a)).digest a) rest

/-- The entries of one group. -/
def ofGroup (g : γ) (l : List α) : List α := l.filter (fun a => decide (group a = g))

variable {group k start} {active : γ} {seq : Int} {prev : H} {l : List α}

@[simp] theorem ofGroup_nil (g : γ) : ofGroup group g [] = [] := rfl

theorem ofGroup_own {g : γ} {a : α} (own : group a = g) : ofGroup group g (a :: l) = a :: ofGroup group g l := by
  simp [ofGroup,own]

theorem ofGroup_foreign {g : γ} {a : α} (foreign : group a ≠ g) : ofGroup group g (a :: l) = ofGroup group g l := by
  simp [ofGroup,foreign]

theorem mem_ofGroup {g : γ} {a : α} : a ∈ ofGroup group g l ↔ a ∈ l ∧ group a = g := by simp [ofGroup]

/-- In the order of groups one walk checks every group by itself. -/
theorem groupChained_iff (sorted : l.Pairwise (fun a b => group a ≤ group b)) (above : ∀ a ∈ l, active ≤ group a) :
    GroupChained group k start active seq prev l ↔
      (k active).Chained prev seq (ofGroup group active l) ∧
      ∀ g ≠ active, (k g).Chained start 0 (ofGroup group g l) := by
  induction l generalizing active seq prev with
  | nil => simp [GroupChained,Link.Chained]
  | cons a rest ih =>
    obtain ⟨before, sorted⟩ := List.pairwise_cons.mp sorted
    have next := @ih (group a) ((expected group start active seq prev a).1 + 1) ((k (group a)).digest a) sorted before
    rw [GroupChained,next]
    by_cases same : group a = active
    · subst same
      have others : ∀ g ≠ group a, ofGroup group g (a :: rest) = ofGroup group g rest :=
        fun g other => ofGroup_foreign other.symm
      simp only [expected,if_true,ofGroup_own,Link.Chained,and_assoc]
      refine and_congr_right fun _ => and_congr_right fun _ => and_congr_right fun _ => ?_
      exact forall_congr' fun g => forall_congr' fun other => by rw [others g other]
    · -- the group of `active` is over
      have past : active < group a := lt_of_le_of_ne (above a (by simp)) (Ne.symm same)
      have gone : ofGroup group active (a :: rest) = [] := by
        refine List.filter_eq_nil_iff.mpr fun b inside => ?_
        have behind : group a ≤ group b := by
          rcases List.mem_cons.mp inside with rfl | later
          · exact le_refl _
          · exact before b later
        simpa using (lt_of_lt_of_le past behind).ne'
      simp only [expected,if_neg same,gone,Link.Chained,true_and]
      constructor
      · rintro ⟨seq_eq, prev_eq, own, others⟩ g _
        by_cases here : group a = g
        · subst here
          rw [ofGroup_own rfl]
          exact ⟨seq_eq, prev_eq, own⟩
        · rw [ofGroup_foreign here]
          exact others g (Ne.symm here)
      · intro all
        have own := all (group a) same
        rw [ofGroup_own rfl] at own
        refine ⟨own.1, own.2.1, own.2.2, fun g other => ?_⟩
        by_cases first : g = active
        · subst first
          rw [ofGroup_foreign same] at gone
          rw [gone]
          trivial
        · have this := all g first
          rwa [ofGroup_foreign (Ne.symm other)] at this

/-- A walk that has seen nothing yet may take any group for the active one. -/
theorem groupChained_start (active active' : γ) :
    GroupChained group k start active 0 start l ↔ GroupChained group k start active' 0 start l := by
  cases l with
  | nil => exact Iff.rfl
  | cons a rest =>
    have fresh : ∀ g : γ, expected group start g 0 start a = (0, start) := fun g => ite_self _
    simp only [GroupChained,fresh]

/-- .. so a walk from the start accepts a list in the order of groups just when every group
is a chain. -/
theorem groupChained_all (sorted : l.Pairwise (fun a b => group a ≤ group b)) :
    GroupChained group k start active 0 start l ↔ ∀ g, (k g).Chained start 0 (ofGroup group g l) := by
  cases l with
  | nil => simp [GroupChained,Link.Chained]
  | cons a rest =>
    have above : ∀ b ∈ a :: rest, group a ≤ group b := by
      intro b inside
      rcases List.mem_cons.mp inside with rfl | later
      · exact le_refl _
      · exact (List.pairwise_cons.mp sorted).1 b later
    rw [groupChained_start active (group a),groupChained_iff sorted above]
    constructor
    · rintro ⟨own, others⟩ g
      by_cases here : g = group a
      · rw [here]; exact own
      · exact others g here
    · exact fun all => ⟨all (group a), fun g _ => all g⟩

variable (group k start) in
/-- Every entry takes the position and digest expected of it. -/
def renumber (set : α → Int → H → α) : γ → Int → H → List α → List α
  | _, _, _, [] => []
  | active, seq, prev, a :: rest =>
    let at_ := expected group start active seq prev a
    set a at_.1 at_.2 ::
      renumber set (group a) (at_.1 + 1) ((k (group a)).digest (set a at_.1 at_.2)) rest

variable {set : α → Int → H → α}

theorem renumber_map {β : Type} {f : α → β} (kept : ∀ a seq prev, f (set a seq prev) = f a) :
    (renumber group k start set active seq prev l).map f = l.map f := by
  induction l generalizing active seq prev with
  | nil => rfl
  | cons a rest ih => simp only [renumber,List.map_cons,kept,ih]

theorem renumber_chained (kept : ∀ a seq prev, group (set a seq prev) = group a)
    (placed : ∀ g a seq prev, (k g).seq (set a seq prev) = seq) (linked : ∀ g a seq prev, (k g).prev (set a seq prev) = prev) :
    GroupChained group k start active seq prev (renumber group k start set active seq prev l) := by
  induction l generalizing active seq prev with
  | nil => trivial
  | cons a rest ih =>
    have same : ∀ seq' prev', expected group start active seq prev (set a seq' prev') = expected group start active seq prev a :=
      fun seq' prev' => by simp only [expected,kept]
    simp only [renumber,GroupChained,same,kept,placed,linked,true_and]
    exact ih

end

end Zaion.Lib
