import Zaion.Turn.Dispatch
import Mathlib.Data.List.Zip

/-! The commit order of the outbox. Ordinals count the rows as they are inserted, so the
order table is a numbering of the outbox, and the queries over both are queries over the
outbox in insertion order. -/
namespace Zaion.Turn

open Lib

/-- The place a transactional insert gives the row with an ordinal. -/
def place (ordinal : Nat) (row : OutboxEntry) : OrderRow :=
  ⟨ordinal, row.tenantId, row.outboxId, .transactional, none⟩

def places (rows : List OutboxRow) : List OrderRow :=
  (rows.zipIdx 1).map (fun p => place p.2 p.1.toOutboxEntry)

structure Ordered (db : Database) : Prop where
  keyed : Table.Keyed outboxKey db.outbox
  order : db.commitOrder = places db.outbox
  sequence : db.sequence = (db.commitOrder.map OrderRow.commitOrdinal).max?

theorem places_append (rows : List OutboxRow) (row : OutboxRow) :
    places (rows ++ [row]) = places rows ++ [place (rows.length + 1) row.toOutboxEntry] := by
  simp [places,List.zipIdx_append,Nat.add_comm]

theorem places_ordinals (rows : List OutboxRow) :
    (places rows).map OrderRow.commitOrdinal = List.range' 1 rows.length := by
  simp only [places,List.map_map]
  exact (List.map_congr_left (fun _ _ => rfl)).trans (List.zipIdx_map_snd 1 rows)

theorem places_keys (rows : List OutboxRow) : (places rows).map OrderRow.key = rows.map outboxKey := by
  rw [places,List.map_map]
  conv_rhs => rw [← List.zipIdx_map_fst 1 rows]
  rw [List.map_map]
  rfl

theorem max_range' (n : Nat) : (List.range' 1 (n + 1)).max? = some (n + 1) := by
  rw [List.max?_eq_some_iff]
  constructor
  · rw [List.mem_range'_1]
    omega
  · intro m member
    rw [List.mem_range'_1] at member
    omega

theorem places_max (rows : List OutboxRow) :
    ((places rows).map OrderRow.commitOrdinal).max?.getD 0 = rows.length := by
  rw [places_ordinals]
  cases rows with
  | nil => rfl
  | cons row rows => rw [List.length_cons,max_range']; rfl

/-- The numbering sees the columns written once, not the lease. -/
theorem places_congr {rows rows' : List OutboxRow}
    (same : rows.map OutboxRow.toOutboxEntry = rows'.map OutboxRow.toOutboxEntry) :
    places rows = places rows' := by
  have numbered : ∀ l : List OutboxRow, places l =
      ((l.map OutboxRow.toOutboxEntry).zipIdx 1).map (fun p => place p.2 p.1) := by
    intro l
    simp [places,List.zipIdx_map]
  rw [numbered,numbered,same]

theorem mem_places {rows : List OutboxRow} {c : OrderRow} :
    c ∈ places rows ↔ ∃ i row, rows[i]? = some row ∧ c = place (i + 1) row.toOutboxEntry := by
  simp only [places,List.mem_map,Prod.exists,List.mk_mem_zipIdx_iff_le_and_getElem?_sub]
  constructor
  · rintro ⟨row, n, ⟨low, found⟩, rfl⟩
    exact ⟨n - 1, row, found, by rw [Nat.sub_add_cancel low]⟩
  · rintro ⟨i, row, found, rfl⟩
    exact ⟨row, i + 1, ⟨by omega, by simpa using found⟩, rfl⟩

theorem range'_pairwise_lt (start n : Nat) : (List.range' start n).Pairwise (· < ·) :=
  List.pairwise_lt_range'

theorem byOrdinal_places (rows : List OutboxRow) : byOrdinal (places rows) = places rows := by
  apply List.mergeSort_of_pairwise
  have increasing := range'_pairwise_lt 1 rows.length
  rw [← places_ordinals,List.pairwise_map] at increasing
  exact increasing.imp (fun h => by simpa using Nat.le_of_lt h)

section

variable {db : Database} (ordered : Ordered db)
include ordered

theorem Ordered.committed_eq :
    committed db = (db.outbox.zipIdx 1).map (fun p => (place p.2 p.1.toOutboxEntry, p.1)) := by
  rw [committed,ordered.order,byOrdinal_places,places,List.filterMap_map]
  rw [← List.filterMap_eq_map]
  apply List.filterMap_congr
  rintro ⟨row, n⟩ member
  have inside : row ∈ db.outbox := (List.mem_zipIdx member).2.2 ▸ List.getElem_mem _
  simp only [Function.comp_apply]
  have found : Table.select outboxKey (place n row.toOutboxEntry).key db.outbox = some row :=
    ordered.keyed.select_mem inside
  rw [found]
  rfl

theorem Ordered.mem_committed {c : OrderRow} {o : OutboxRow} :
    (c, o) ∈ committed db ↔ ∃ i, db.outbox[i]? = some o ∧ c = place (i + 1) o.toOutboxEntry := by
  simp only [ordered.committed_eq,List.mem_map,Prod.exists,Prod.mk.injEq,
    List.mk_mem_zipIdx_iff_le_and_getElem?_sub]
  constructor
  · rintro ⟨row, n, ⟨low, found⟩, rfl, rfl⟩
    exact ⟨n - 1, found, by rw [Nat.sub_add_cancel low]⟩
  · rintro ⟨i, found, rfl⟩
    exact ⟨o, i + 1, ⟨by omega, by simpa using found⟩, rfl, rfl⟩

theorem Ordered.committed_snd : (committed db).map Prod.snd = db.outbox := by
  rw [ordered.committed_eq,List.map_map]
  exact (List.map_congr_left (fun _ _ => rfl)).trans (List.zipIdx_map_fst 1 db.outbox)

theorem Ordered.select_order {row : OutboxRow} {i : Nat} (found : db.outbox[i]? = some row) :
    Table.select OrderRow.key row.key db.commitOrder = some (place (i + 1) row.toOutboxEntry) := by
  have keyed : Table.Keyed OrderRow.key db.commitOrder := by
    unfold Table.Keyed
    rw [ordered.order,places_keys]
    exact ordered.keyed
  rw [keyed.select_iff,ordered.order]
  exact ⟨mem_places.mpr ⟨i, row, found, rfl⟩, rfl⟩

theorem Ordered.mem_ordinals {tenantId : String} {delivered : Bool} {n : Nat} :
    n ∈ ordinals delivered ((committed db).filter (fun row => row.2.tenantId = tenantId)) ↔
      ∃ i o, db.outbox[i]? = some o ∧ o.tenantId = tenantId ∧
        decide (o.status = .delivered) = delivered ∧ n = i + 1 := by
  simp only [ordinals,List.mem_map,List.mem_filter,Prod.exists,ordered.mem_committed,decide_eq_true_eq,
    beq_iff_eq]
  constructor
  · rintro ⟨c, o, ⟨⟨⟨i, found, rfl⟩, own⟩, status⟩, rfl⟩
    exact ⟨i, o, found, own, status, rfl⟩
  · rintro ⟨i, o, found, own, status, rfl⟩
    exact ⟨_, o, ⟨⟨⟨i, found, rfl⟩, own⟩, status⟩, rfl⟩

end

/-- No row of a tenant is delivered before an earlier one. -/
def DeliveredInOrder (db : Database) : Prop :=
  ∀ (j i : Nat) (earlier row : OutboxRow), j < i → db.outbox[j]? = some earlier → db.outbox[i]? = some row →
    earlier.tenantId = row.tenantId → row.status = .delivered → earlier.status = .delivered

/-- The first undelivered row of its tenant. -/
structure Head (db : Database) (i : Nat) (row : OutboxRow) : Prop where
  position : db.outbox[i]? = some row
  undelivered : row.status ≠ .delivered
  first : ∀ (j : Nat) (earlier : OutboxRow), j < i → db.outbox[j]? = some earlier → earlier.tenantId = row.tenantId →
    earlier.status = .delivered

theorem Head.mem {db : Database} {i : Nat} {row : OutboxRow} (head : Head db i row) : row ∈ db.outbox :=
  List.mem_of_getElem? head.position

/-- A tenant has one head. -/
theorem Head.unique {db : Database} {i j : Nat} {row other : OutboxRow} (head : Head db i row)
    (head' : Head db j other) (same : row.tenantId = other.tenantId) : i = j ∧ row = other := by
  have le : ∀ {i j : Nat} {row other : OutboxRow}, Head db i row → Head db j other →
      row.tenantId = other.tenantId → j ≤ i := by
    intro i j row other head head' same
    by_contra before
    exact head.undelivered (head'.first i row (Nat.lt_of_not_le before) head.position same)
  obtain rfl := Nat.le_antisymm (le head' head same.symm) (le head head' same)
  exact ⟨rfl, Option.some.inj (head.position.symm.trans head'.position)⟩

section

variable {db : Database} (ordered : Ordered db)
include ordered

/-- The least undelivered ordinal of a tenant is that of its head. -/
theorem Ordered.first_undelivered {tenantId : String} {n : Nat}
    (first : (deliveryBounds db tenantId).1 = some n) :
    ∃ i row, Head db i row ∧ row.tenantId = tenantId ∧ n = i + 1 := by
  simp only [deliveryBounds,List.min?_eq_some_iff,ordered.mem_ordinals,decide_eq_false_iff_not] at first
  obtain ⟨⟨i, row, found, own, undelivered, rfl⟩, least⟩ := first
  refine ⟨i, row, ⟨found, undelivered, ?_⟩, own, rfl⟩
  intro j earlier before here same
  by_contra notDelivered
  have := least (j + 1) ⟨j, earlier, here, same.trans own, notDelivered, rfl⟩
  omega

theorem Ordered.deliveredHole_false (inOrder : DeliveredInOrder db) (tenantId : String) :
    deliveredHole db tenantId = false := by
  unfold deliveredHole
  split
  · rename_i first last bounds
    have low : (deliveryBounds db tenantId).1 = some first := by rw [bounds]
    have high : (deliveryBounds db tenantId).2 = some last := by rw [bounds]
    obtain ⟨i, row, head, own, rfl⟩ := ordered.first_undelivered low
    simp only [deliveryBounds,List.max?_eq_some_iff,ordered.mem_ordinals,decide_eq_true_eq] at high
    obtain ⟨⟨j, other, found, own', delivered, rfl⟩, _⟩ := high
    have notBefore : ¬ i + 1 < j + 1 := by
      intro before
      exact head.undelivered (inOrder i j row other (by omega) head.position found (own.trans own'.symm)
        delivered)
    simpa using notBefore
  · rfl

/-- What `tenant_outbox_head` answers is the head. -/
theorem Ordered.tenantOutboxHead_ok {tenantId outboxId : String}
    (answer : tenantOutboxHead db tenantId = .ok (some outboxId)) :
    ∃ i row, Head db i row ∧ outboxKey row = (tenantId, outboxId) := by
  simp only [tenantOutboxHead,bind_ok_iff] at answer
  obtain ⟨_, _, _, _, _, _, answer⟩ := answer
  cases first : (deliveryBounds db tenantId).1 with
  | none => simp [first] at answer
  | some n =>
    obtain ⟨i, row, head, own, rfl⟩ := ordered.first_undelivered first
    simp only [first,Except.ok.injEq,Option.map_eq_some_iff] at answer
    obtain ⟨⟨c, o⟩, found, rfl⟩ := answer
    have member := List.mem_of_find?_eq_some found
    have holds := List.find?_some found
    rw [ordered.mem_committed] at member
    obtain ⟨j, here, rfl⟩ := member
    simp only [place,Bool.and_eq_true,decide_eq_true_eq,Nat.add_right_cancel_iff] at holds
    obtain ⟨⟨own', rfl⟩, _⟩ := holds
    obtain rfl := Option.some.inj (head.position.symm.trans here)
    exact ⟨j, row, head, by simp [outboxKey,OutboxEntry.key,own]⟩

end

end Zaion.Turn
