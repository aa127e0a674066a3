import Mathlib.Data.List.Sort
import Mathlib.Data.List.Pairwise
import Mathlib.Tactic.Linarith

/-! Sequenced hash chains over arbitrary entries. An entry carries its position and
the digest stored for its predecessor; a `Link` says where these are read and which
digest the entry itself hands on. -/
namespace Zaion.Lib

structure Link (α H : Type) where
  seq : α → Int
  prev : α → H
  digest : α → H

namespace Link

variable {α H : Type} (k : Link α H)

/-- Entries continue the chain from digest `prev` and position `seq`. -/
def Chained : H → Int → List α → Prop
  | _, _, [] => True
  | prev, seq, a :: rest => k.seq a = seq ∧ k.prev a = prev ∧ Chained (k.digest a) (seq + 1) rest

/-- What the entry after `entries` must store as its predecessor. -/
def tail (prev : H) (entries : List α) : H := (entries.getLast?.map k.digest).getD prev

@[simp] theorem tail_nil (prev : H) : k.tail prev [] = prev := rfl

@[simp] theorem tail_cons (prev : H) (a : α) (rest : List α) :
    k.tail prev (a :: rest) = k.tail (k.digest a) rest := by
  cases rest with
  | nil => rfl
  | cons b rest =>
    have last : (b :: rest).getLast? = some ((b :: rest).getLast (by simp)) :=
      List.getLast?_eq_some_getLast (by simp)
    rw [tail,tail,List.getLast?_cons_cons,last]; rfl

theorem chained_append {prev : H} {seq : Int} {entries more : List α} :
    k.Chained prev seq (entries ++ more) ↔
      k.Chained prev seq entries ∧ k.Chained (k.tail prev entries) (seq + entries.length) more := by
  induction entries generalizing prev seq with
  | nil => simp [Chained]
  | cons a rest ih =>
    have shift : seq + 1 + (rest.length : Int) = seq + ((a :: rest).length : Int) := by
      simp only [List.length_cons,Nat.cast_add,Nat.cast_one]; omega
    simp only [List.cons_append,Chained,ih,tail_cons,shift,and_assoc]

/-- A chain grows by the entry its tail asks for and by no other. -/
theorem chained_snoc {prev : H} {seq : Int} {entries : List α} {a : α} :
    k.Chained prev seq (entries ++ [a]) ↔ k.Chained prev seq entries ∧
      k.seq a = seq + entries.length ∧ k.prev a = k.tail prev entries := by
  simp [chained_append,Chained]

theorem chained_get {prev : H} {seq : Int} {entries : List α} (chained : k.Chained prev seq entries)
    (i : Nat) (bound : i < entries.length) :
    k.seq entries[i] = seq + i ∧ k.prev entries[i] = k.tail prev (entries.take i) := by
  induction entries generalizing prev seq i with
  | nil => simp at bound
  | cons a rest ih =>
    cases i with
    | zero => simpa [Chained] using ⟨chained.1, chained.2.1⟩
    | succ i =>
      have next := ih chained.2.2 i (by simpa using bound)
      simp only [List.getElem_cons_succ,List.take_succ_cons,tail_cons,Nat.cast_add,Nat.cast_one]
      exact ⟨by rw [next.1]; omega, next.2⟩

theorem chained_seqs {prev : H} {seq : Int} {entries : List α} (chained : k.Chained prev seq entries) :
    entries.map k.seq = (List.range entries.length).map (fun (i : Nat) => seq + (i : Int)) := by
  apply List.ext_getElem
  · simp
  · intro i hi _
    have bound : i < entries.length := by simpa using hi
    simp [(k.chained_get chained i bound).1]

/-- Positions strictly increase along a chain. -/
theorem chained_increasing {prev : H} {seq : Int} {entries : List α}
    (chained : k.Chained prev seq entries) : entries.Pairwise (fun a b => k.seq a < k.seq b) := by
  rw [List.pairwise_iff_getElem]
  intro i j hi hj less
  rw [(k.chained_get chained i hi).1,(k.chained_get chained j hj).1]
  omega

/-- A chain is already in the order of its positions. -/
theorem mergeSort_chained {prev : H} {seq : Int} {entries : List α}
    (chained : k.Chained prev seq entries) :
    entries.mergeSort (fun a b => decide (k.seq a ≤ k.seq b)) = entries := by
  apply List.mergeSort_of_pairwise
  exact (k.chained_increasing chained).imp (fun less => by simpa using le_of_lt less)

/-- The same chain, read off other entries. -/
def comap {β : Type} (f : β → α) : Link β H where
  seq := k.seq ∘ f
  prev := k.prev ∘ f
  digest := k.digest ∘ f

theorem chained_comap {β : Type} {f : β → α} {prev : H} {seq : Int} {entries : List β} :
    (k.comap f).Chained prev seq entries ↔ k.Chained prev seq (entries.map f) := by
  induction entries generalizing prev seq with
  | nil => exact Iff.rfl
  | cons b rest ih =>
    rw [List.map_cons]
    exact and_congr_right fun _ => and_congr_right fun _ => ih

end Link

/-- The order of positions is the one strictly increasing arrangement. -/
theorem mergeSort_of_perm {α : Type} (seq : α → Int) {entries sorted : List α} (perm : entries.Perm sorted)
    (increasing : sorted.Pairwise (fun a b => seq a < seq b)) :
    entries.mergeSort (fun a b => decide (seq a ≤ seq b)) = sorted := by
  have ordered : (entries.mergeSort (fun a b => decide (seq a ≤ seq b))).Pairwise (fun a b => seq a ≤ seq b) := by
    refine (List.pairwise_mergeSort ?_ ?_ entries).imp of_decide_eq_true
    · intro a b c first second
      simp only [decide_eq_true_eq] at first second ⊢
      omega
    · intro a b
      simp only [Bool.or_eq_true,decide_eq_true_eq]
      omega
  have all := (List.mergeSort_perm entries (fun a b => decide (seq a ≤ seq b))).trans perm
  refine List.Perm.eq_of_pairwise ?_ ordered (increasing.imp le_of_lt) all
  -- two entries at one position are one
  intro a b inside known low high
  obtain ⟨i, inside_i, rfl⟩ := List.mem_iff_getElem.mp (all.mem_iff.mp inside)
  obtain ⟨j, inside_j, rfl⟩ := List.mem_iff_getElem.mp known
  rw [List.pairwise_iff_getElem] at increasing
  rcases lt_trichotomy i j with less | same | more
  · have := increasing i j inside_i inside_j less
    omega
  · subst same; rfl
  · have := increasing j i inside_j inside_i more
    omega

end Zaion.Lib
