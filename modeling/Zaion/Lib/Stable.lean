import Mathlib.Data.List.Induction
import Mathlib.Data.List.Perm.Lattice
import Mathlib.Order.Lattice

/-! Lists kept to the first element of each key, and what stable sorting by a key does: the
result is the same for every order of the input when keys tell the elements apart, and
elements with one key keep their order. Last, lists kept in order of rank and arrival. -/
namespace Zaion.Lib

section

variable {α κ : Type} [DecidableEq κ] {key : α → κ} {l l' : List α}

/-- Append, unless something with this key is there. -/
def pushNew (key : α → κ) (kept : List α) (a : α) : List α :=
  if kept.any (fun b => decide (key b = key a)) then kept else kept ++ [a]

def firstOnly (key : α → κ) (l : List α) : List α := l.foldl (pushNew key) []

@[simp] theorem firstOnly_nil (key : α → κ) : firstOnly key [] = [] := rfl

theorem firstOnly_concat (key : α → κ) (l : List α) (a : α) :
    firstOnly key (l ++ [a]) = pushNew key (firstOnly key l) a := by
  simp [firstOnly]

theorem pushNew_of_mem {kept : List α} {a : α} (seen : key a ∈ kept.map key) : pushNew key kept a = kept := by
  obtain ⟨b, member, same⟩ := List.mem_map.mp seen
  exact if_pos (List.any_eq_true.mpr ⟨b, member, decide_eq_true same⟩)

theorem pushNew_of_notMem {kept : List α} {a : α} (new : key a ∉ kept.map key) :
    pushNew key kept a = kept ++ [a] := by
  refine if_neg ?_
  intro any
  obtain ⟨b, member, same⟩ := List.any_eq_true.mp any
  exact new (List.mem_map.mpr ⟨b, member, of_decide_eq_true same⟩)

theorem mem_firstOnly_keys (k : κ) : k ∈ (firstOnly key l).map key ↔ k ∈ l.map key := by
  induction l using List.reverseRecOn with
  | nil => rfl
  | append_singleton l a ih =>
    rw [firstOnly_concat,List.map_append,List.mem_append]
    by_cases seen : key a ∈ (firstOnly key l).map key
    · rw [pushNew_of_mem seen,ih]
      refine ⟨.inl, ?_⟩
      rintro (before | here)
      · exact before
      · rw [List.map_singleton,List.mem_singleton] at here
        exact ih.mp (here ▸ seen)
    · rw [pushNew_of_notMem seen,List.map_append,List.mem_append,ih]

theorem firstOnly_keys_nodup (key : α → κ) (l : List α) : ((firstOnly key l).map key).Nodup := by
  induction l using List.reverseRecOn with
  | nil => exact List.nodup_nil
  | append_singleton l a ih =>
    rw [firstOnly_concat]
    by_cases seen : key a ∈ (firstOnly key l).map key
    · rwa [pushNew_of_mem seen]
    · rw [pushNew_of_notMem seen,List.map_append]
      refine List.nodup_append.mpr ⟨ih, List.nodup_singleton _, ?_⟩
      intro x before y here same
      rw [List.map_singleton,List.mem_singleton] at here
      exact seen (here ▸ same ▸ before)

theorem firstOnly_sublist (key : α → κ) (l : List α) : (firstOnly key l).Sublist l := by
  induction l using List.reverseRecOn with
  | nil => exact .slnil
  | append_singleton l a ih =>
    rw [firstOnly_concat]
    unfold pushNew
    split
    · exact ih.trans (List.sublist_append_left l [a])
    · exact ih.append (List.Sublist.refl [a])

theorem firstOnly_of_nodup (distinct : (l.map key).Nodup) : firstOnly key l = l := by
  induction l using List.reverseRecOn with
  | nil => rfl
  | append_singleton l a ih =>
    rw [List.map_append,List.nodup_append] at distinct
    rw [firstOnly_concat,ih distinct.1]
    refine pushNew_of_notMem ?_
    intro seen
    exact distinct.2.2 _ seen _ (List.mem_map_of_mem (List.mem_singleton_self a)) rfl

/-- Nothing is dropped only when no key comes twice. -/
theorem nodup_of_firstOnly_length (same : (firstOnly key l).length = l.length) : (l.map key).Nodup := by
  rw [← (firstOnly_sublist key l).eq_of_length same]
  exact firstOnly_keys_nodup key l

theorem firstOnly_keys_perm (perm : l.Perm l') :
    ((firstOnly key l).map key).Perm ((firstOnly key l').map key) := by
  refine (List.perm_ext_iff_of_nodup (firstOnly_keys_nodup key l) (firstOnly_keys_nodup key l')).mpr ?_
  intro k
  rw [mem_firstOnly_keys,mem_firstOnly_keys]
  exact (perm.map key).mem_iff

end

/-- The last element is last among those like it. -/
theorem getLast?_filter {α : Type} {p : α → Bool} {l : List α} {a : α} (last : l.getLast? = some a) (kept : p a = true) :
    (l.filter p).getLast? = some a := by
  obtain ⟨front, rfl⟩ := List.getLast?_eq_some_iff.mp last
  simp [kept]

section

variable {α κ : Type} [LinearOrder κ] {key : α → κ} {l l' : List α}

/-- `sort_by` of the keys. -/
def sortBy (key : α → κ) (l : List α) : List α := l.mergeSort (fun a b => decide (key a ≤ key b))

theorem sortBy_perm (key : α → κ) (l : List α) : (sortBy key l).Perm l := List.mergeSort_perm l _

theorem sortBy_pairwise (key : α → κ) (l : List α) : (sortBy key l).Pairwise (fun a b => key a ≤ key b) := by
  have sorted : (sortBy key l).Pairwise (fun a b => decide (key a ≤ key b) = true) := by
    apply List.pairwise_mergeSort
    · intro a b c first second
      exact decide_eq_true (le_trans (of_decide_eq_true first) (of_decide_eq_true second))
    · intro a b
      simpa using le_total (key a) (key b)
  exact sorted.imp of_decide_eq_true

/-- Two orders of elements the keys tell apart are sorted alike. -/
theorem sortBy_eq_of_perm (perm : l.Perm l') (apart : ∀ a ∈ l, ∀ b ∈ l, key a = key b → a = b) :
    sortBy key l = sortBy key l' := by
  have both : (sortBy key l).Perm (sortBy key l') := (sortBy_perm key l).trans (perm.trans (sortBy_perm key l').symm)
  refine both.eq_of_pairwise ?_ (sortBy_pairwise key l) (sortBy_pairwise key l')
  intro a b first second below above
  have inside : b ∈ l := perm.mem_iff.mpr ((sortBy_perm key l').mem_iff.mp second)
  exact apart a ((sortBy_perm key l).mem_iff.mp first) b inside (le_antisymm below above)

/-- Sorting is stable: among the elements of one key, the order stays. -/
theorem filter_sortBy {p : α → Bool} {k : κ} (one : ∀ a, p a = true → key a = k) :
    (sortBy key l).filter p = l.filter p := by
  have equal : (l.filter p).Pairwise (fun a b => decide (key a ≤ key b) = true) := by
    refine List.Pairwise.imp_of_mem ?_ (List.pairwise_of_forall (R := fun _ _ => True) (fun _ _ => trivial))
    intro a b first second _
    exact decide_eq_true (le_of_eq ((one a (List.mem_filter.mp first).2).trans (one b (List.mem_filter.mp second).2).symm))
  have inside : (l.filter p).Sublist (sortBy key l) := by
    refine List.sublist_mergeSort ?_ ?_ equal List.filter_sublist
    · intro a b c first second
      exact decide_eq_true (le_trans (of_decide_eq_true first) (of_decide_eq_true second))
    · intro a b
      simpa using le_total (key a) (key b)
  have kept : (l.filter p).Sublist ((sortBy key l).filter p) := by
    have twice := inside.filter p
    simpa only [List.filter_filter,Bool.and_self] using twice
  exact (kept.eq_of_length ((sortBy_perm key l).filter p).length_eq.symm).symm

/-- The last element of a kind has the greatest key of its kind. -/
theorem le_of_getLast?_sortBy {p : α → Bool} {a : α} (last : ((sortBy key l).filter p).getLast? = some a) :
    ∀ b ∈ l, p b = true → key b ≤ key a := by
  intro b member kept
  obtain ⟨front, split⟩ := List.getLast?_eq_some_iff.mp last
  have sorted := (sortBy_pairwise key l).filter p
  rw [split] at sorted
  have inside : b ∈ front ++ [a] := split ▸ List.mem_filter.mpr ⟨(sortBy_perm key l).mem_iff.mpr member, kept⟩
  rcases List.mem_append.mp inside with before | here
  · exact (List.pairwise_append.mp sorted).2.2 b before a (List.mem_singleton_self a)
  · rw [List.mem_singleton.mp here]

/-- The last of the input stays last of its kind when no key of the kind is greater. -/
theorem getLast?_sortBy {p : α → Bool} {a : α} (kept : p a = true) (greatest : ∀ b ∈ l, p b = true → key b ≤ key a) :
    ((sortBy key (l ++ [a])).filter p).getLast? = some a := by
  have inside : a ∈ (sortBy key (l ++ [a])).filter p :=
    List.mem_filter.mpr ⟨(sortBy_perm key _).mem_iff.mpr (List.mem_append_right _ (List.mem_singleton_self a)), kept⟩
  obtain ⟨z, last⟩ := Option.isSome_iff_exists.mp (List.getLast?_isSome.mpr (List.ne_nil_of_mem inside))
  have above : key a ≤ key z := le_of_getLast?_sortBy last a (List.mem_append_right _ (List.mem_singleton_self a)) kept
  have listed := List.mem_filter.mp (List.mem_of_getLast? last)
  have below : key z ≤ key a := by
    rcases List.mem_append.mp ((sortBy_perm key _).mem_iff.mp listed.1) with before | here
    · exact greatest z before listed.2
    · rw [List.mem_singleton.mp here]
  -- Among the elements of its kind and key, `a` came last.
  have tied := getLast?_filter last (p := fun b => decide (key b = key a)) (decide_eq_true (le_antisymm below above))
  have one (b : α) (like : (decide (key b = key a) && p b) = true) : key b = key a :=
    of_decide_eq_true (Bool.and_eq_true _ _ ▸ like).1
  rw [List.filter_filter,filter_sortBy one] at tied
  simp only [List.filter_append,List.filter_singleton,kept,decide_true,Bool.and_self,cond_true,
    List.getLast?_concat] at tied
  rw [last,← tied]

end

section

variable {α κ : Type} [LinearOrder κ] {rank rank' : α → κ} {order l l' : List α}

/-- Higher ranks stand first, and what has one rank stands in the order given. -/
def Ranked (rank : α → κ) (order l : List α) : Prop :=
  l.Pairwise (fun a b => rank b < rank a ∨ (rank b = rank a ∧ [a, b].Sublist order))

theorem Ranked.le {a b : α} (ranked : Ranked rank order (a :: l)) (inside : b ∈ l) : rank b ≤ rank a := by
  rcases (List.pairwise_cons.mp ranked).1 b inside with less | ⟨same, _⟩
  · exact less.le
  · exact same.le

theorem Ranked.sublist (ranked : Ranked rank order l) (part : l'.Sublist l) : Ranked rank order l' := List.Pairwise.sublist part ranked

theorem Ranked.congr (ranked : Ranked rank order l) (same : ∀ a ∈ l, rank' a = rank a) : Ranked rank' order l := by
  refine List.Pairwise.imp_of_mem ?_ ranked
  intro a b left right before
  rw [same a left,same b right]
  exact before

theorem Ranked.mono {order' : List α} (ranked : Ranked rank order l) (part : order.Sublist order') : Ranked rank order' l :=
  ranked.imp fun before => before.imp id fun ⟨same, first⟩ => ⟨same, first.trans part⟩

/-- What is not in the list may leave the order. -/
theorem Ranked.filter {p : α → Bool} (ranked : Ranked rank order l) (kept : ∀ a ∈ l, p a = true) : Ranked rank (order.filter p) l := by
  refine List.Pairwise.imp_of_mem ?_ ranked
  rintro a b left right (less | ⟨same, first⟩)
  · exact .inl less
  · refine .inr ⟨same, ?_⟩
    have pair : [a, b].filter p = [a, b] := by simp [kept a left,kept b right]
    exact pair ▸ first.filter p

/-- An element goes in front of the first one of a lower rank, and comes last in the order. -/
theorem Ranked.insertIdx {p : α → Bool} {a : α} (ranked : Ranked rank order l) (inside : ∀ b ∈ l, b ∈ order)
    (lower : ∀ b ∈ l, p b = true ↔ rank b < rank a) : Ranked rank (order ++ [a]) (l.insertIdx (l.findIdx p) a) := by
  induction l with
  | nil => exact List.pairwise_singleton ..
  | cons b l ih =>
    have longer : Ranked rank (order ++ [a]) (b :: l) := ranked.mono (List.sublist_append_left ..)
    by_cases below : p b = true
    · rw [List.findIdx_cons,below]
      refine List.pairwise_cons.mpr ⟨fun c member => .inl ?_, longer⟩
      have first := (lower b List.mem_cons_self).mp below
      rcases List.mem_cons.mp member with rfl | later
      · exact first
      · exact (ranked.le later).trans_lt first
    · have rest := ih (ranked.sublist (List.sublist_cons_self ..)) (fun c member => inside c (List.mem_cons_of_mem _ member))
        (fun c member => lower c (List.mem_cons_of_mem _ member))
      rw [List.findIdx_cons,Bool.eq_false_iff.mpr below]
      refine List.pairwise_cons.mpr ⟨fun c member => ?_, rest⟩
      rcases (List.mem_insertIdx (List.findIdx_le_length ..)).mp member with rfl | old
      · have least : rank c ≤ rank b := not_lt.mp (mt (lower b List.mem_cons_self).mpr below)
        rcases least.lt_or_eq with less | same
        · exact .inl less
        · refine .inr ⟨same, ?_⟩
          exact List.Sublist.append (List.singleton_sublist.mpr (inside b List.mem_cons_self)) (List.Sublist.refl [c])
      · exact (List.pairwise_cons.mp longer).1 c old

end

end Zaion.Lib
