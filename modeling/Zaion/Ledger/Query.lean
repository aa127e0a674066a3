import Zaion.Ledger.Chain
import Zaion.Sample
import Mathlib.Data.List.Perm.Lattice

/-! Queries of the ledger in descending `seq_num`. SQL leaves the order of rows with one
`seq_num` open, so a query also depends on the order in which the engine comes to its rows. -/
namespace Zaion.Ledger

open Lib

/-- The order in which the engine reaches the rows of a query. -/
structure ScanOrder where
  order : List EventRow → List EventRow
  perm : ∀ rows, (order rows).Perm rows

inductive EventQuery where
  | listGlobalEvents
  | listEvents (sessionKey : String) (eventType : Option String)
  deriving DecidableEq, Repr

/-- The `WHERE` clause. -/
def EventQuery.selects : EventQuery → EventRow → Bool
  | .listGlobalEvents, _ => true
  | .listEvents sessionKey none, row => decide (row.namespaceKey = sessionKey)
  | .listEvents sessionKey (some eventType), row =>
    decide (row.namespaceKey = sessionKey) && decide (row.eventType = eventType)

/-- `LIMIT` of `limit as i64`, which is no limit when the cast makes it negative. -/
def atMost (limit : UInt64) (rows : List α) : List α := if limit.toNat < 2 ^ 63 then rows.take limit.toNat else rows

/-- `ORDER BY seq_num DESC LIMIT ..`. -/
def EventQuery.rows (query : EventQuery) (scan : ScanOrder) (table : List EventRow) (limit : UInt64) : List EventRow :=
  atMost limit ((scan.order (table.filter query.selects)).mergeSort (fun a b => decide (b.seqNum ≤ a.seqNum)))

def EventQuery.run (host : Host) (query : EventQuery) (scan : ScanOrder) (table : List EventRow) (limit : UInt64) :
    Except LedgerError (List LedgerEvent) := mapAll (rowToEvent host) (query.rows scan table limit)

/-- The last `limit` rows of a table that match, last first. -/
def EventQuery.newest (query : EventQuery) (table : List EventRow) (limit : UInt64) : List EventRow :=
  atMost limit (table.filter query.selects).reverse

/-- Whether a row that `later` rows follow is within the limit. -/
def within (limit : UInt64) (later : Nat) : Prop := limit.toNat < 2 ^ 63 → later < limit.toNat

instance : Decidable (within limit later) := inferInstanceAs (Decidable (_ → _))

/-- Each row within the limit has a greater `seq_num` than every row before it. -/
def Rising (limit : UInt64) (rows : List EventRow) : Prop :=
  ∀ before row after, rows = before ++ row :: after → within limit after.length →
    ∀ old ∈ before, old.seqNum < row.seqNum

section

variable {rows ordered : List EventRow} {row : EventRow}

theorem descending (rows : List EventRow) :
    (rows.mergeSort (fun a b => decide (b.seqNum ≤ a.seqNum))).Pairwise (fun a b => b.seqNum ≤ a.seqNum) := by
  have sorted : (rows.mergeSort (fun a b => decide (b.seqNum ≤ a.seqNum))).Pairwise
      (fun a b => decide (b.seqNum ≤ a.seqNum) = true) := by
    apply List.pairwise_mergeSort
    · intro a b c first second
      simp only [decide_eq_true_eq] at first second ⊢
      omega
    · intro a b
      simp only [Bool.or_eq_true,decide_eq_true_eq]
      omega
  exact sorted.imp of_decide_eq_true

/-- A row above all others comes first. -/
theorem greatest_first (perm : ordered.Perm (rows ++ [row])) (sorted : ordered.Pairwise (fun a b => b.seqNum ≤ a.seqNum))
    (greatest : ∀ old ∈ rows, old.seqNum < row.seqNum) : ∃ rest, ordered = row :: rest ∧ rest.Perm rows := by
  cases ordered with
  | nil => exact absurd perm.symm.eq_nil (by simp)
  | cons first rest =>
    have same : first = row := by
      by_contra other
      have inside : row ∈ first :: rest := perm.mem_iff.mpr (List.mem_append_right _ (List.mem_singleton_self row))
      have below := (List.pairwise_cons.mp sorted).1 row (List.mem_of_ne_of_mem (Ne.symm other) inside)
      rcases List.mem_append.mp (perm.mem_iff.mp List.mem_cons_self) with old | last
      · have above := greatest first old
        omega
      · exact other (List.mem_singleton.mp last)
    subst same
    refine ⟨rest, rfl, ?_⟩
    exact (perm.trans (List.perm_append_singleton first rows)).cons_inv

/-- Where the last rows rise, a descending order takes them from the end. -/
theorem take_descending (n : Nat) (perm : ordered.Perm rows) (sorted : ordered.Pairwise (fun a b => b.seqNum ≤ a.seqNum))
    (rising : ∀ before row after, rows = before ++ row :: after → after.length < n → ∀ old ∈ before, old.seqNum < row.seqNum) :
    ordered.take n = rows.reverse.take n := by
  induction n generalizing ordered rows with
  | zero => rfl
  | succ n ih =>
    rcases List.eq_nil_or_concat rows with rfl | ⟨front, last, rfl⟩
    · rw [perm.eq_nil]
      rfl
    · rw [List.concat_eq_append] at *
      obtain ⟨rest, rfl, others⟩ := greatest_first perm sorted (rising front last [] rfl (Nat.zero_lt_succ n))
      have later := ih others (List.pairwise_cons.mp sorted).2 (by
        intro before row after split few
        exact rising before row (after ++ [last]) (by rw [split,List.append_assoc,List.cons_append]) (by simpa using few))
      rw [List.reverse_append,List.reverse_singleton,List.singleton_append,List.take_succ_cons,List.take_succ_cons,later]

/-- A row that a stable descending order leaves behind an older one is not where it belongs. -/
theorem misplaced {before after : List EventRow} {old : EventRow} {n : Nat} (distinct : (before ++ row :: after).Nodup)
    (member : old ∈ before) (few : after.length < n) (perm : ordered.Perm (before ++ row :: after))
    (behind : [old, row].Sublist ordered) : ordered.take n ≠ (before ++ row :: after).reverse.take n := by
  intro same
  have reversed : (before ++ row :: after).reverse = after.reverse ++ row :: before.reverse := by simp
  -- Up to the place of `row` the two lists agree.
  have front : ordered.take after.length = after.reverse := by
    have cut := congrArg (List.take after.length) same
    rw [List.take_take,List.take_take,min_eq_left few.le,reversed,List.take_left' List.length_reverse] at cut
    exact cut
  have here : ordered[after.length]? = some row := by
    have cut := congrArg (fun l : List EventRow => l[after.length]?) same
    simp only [List.getElem?_take,few,if_true,reversed] at cut
    rw [cut,List.getElem?_append_right (by simp)]
    simp
  obtain ⟨bound, value⟩ := List.getElem?_eq_some_iff.mp here
  have unique : ordered.Nodup := perm.nodup_iff.mpr distinct
  have parts : ordered = after.reverse ++ row :: ordered.drop (after.length + 1) := by
    conv => lhs; rw [← List.take_append_drop after.length ordered]
    rw [front,List.drop_eq_getElem_cons bound,value]
  rw [parts] at unique behind
  obtain ⟨_, tail, apart⟩ := List.nodup_append.mp unique
  have apartOld : old ∉ row :: after := fun late => (List.nodup_append.mp distinct).2.2 old member old late rfl
  obtain ⟨first, second, split, inFirst, inSecond⟩ := List.sublist_append_iff.mp behind
  cases first with
  | nil =>
    rw [List.nil_append] at split
    rw [← split] at inSecond
    rcases List.sublist_cons_iff.mp inSecond with skipped | ⟨rest, head, _⟩
    · exact (List.nodup_cons.mp tail).1 (skipped.subset (by simp))
    · exact apartOld ((List.cons.inj head).1 ▸ List.mem_cons_self)
  | cons head rest =>
    obtain rfl := (List.cons.inj split).1
    exact apartOld (List.mem_cons_of_mem _ (List.mem_reverse.mp (inFirst.subset List.mem_cons_self)))

end

section

variable {host : Host} {table : List EventRow}

theorem atMost_eq (limit : UInt64) (rows : List EventRow) :
    ∃ n, (∀ l : List EventRow, l.length = rows.length → atMost limit l = l.take n) ∧
      ∀ later, later < rows.length → (within limit later ↔ later < n) := by
  unfold atMost within
  by_cases small : limit.toNat < 2 ^ 63
  · exact ⟨limit.toNat, fun l _ => if_pos small, fun later _ => ⟨fun inside => inside small, fun inside _ => inside⟩⟩
  · refine ⟨rows.length, ?_, ?_⟩
    · intro l same
      rw [if_neg small,← same,List.take_length]
    · intro later inside
      exact ⟨fun _ => inside, fun _ small' => absurd small' small⟩

/-- A table whose rows differ answers a query with the newest rows first, whatever the engine's
order, exactly when the rows within the limit rise. -/
theorem newest_iff_rising (query : EventQuery) (limit : UInt64) (distinct : table.Nodup) :
    (∀ scan, query.rows scan table limit = query.newest table limit) ↔ Rising limit (table.filter query.selects) := by
  obtain ⟨n, takes, inside⟩ := atMost_eq limit (table.filter query.selects)
  have answer (scan : ScanOrder) : query.rows scan table limit = ((scan.order (table.filter query.selects)).mergeSort
      (fun a b => decide (b.seqNum ≤ a.seqNum))).take n := by
    refine takes _ ?_
    rw [List.length_mergeSort]
    exact (scan.perm _).length_eq
  have wanted : query.newest table limit = (table.filter query.selects).reverse.take n :=
    takes _ List.length_reverse
  constructor
  · intro newest before row after split few old member
    by_contra above
    have plain := newest ⟨id, fun _ => List.Perm.refl _⟩
    rw [answer,wanted,split] at plain
    have unique : (before ++ row :: after).Nodup := split ▸ distinct.filter _
    have short : after.length < (table.filter query.selects).length := by rw [split]; simp; omega
    refine misplaced unique member ((inside _ short).mp few) (List.mergeSort_perm _ _) ?_ plain
    refine List.pair_sublist_mergeSort ?_ ?_ (decide_eq_true (not_lt.mp above)) ?_
    · intro a b c first second
      simp only [decide_eq_true_eq] at first second ⊢
      omega
    · intro a b
      simp only [Bool.or_eq_true,decide_eq_true_eq]
      omega
    · exact (List.singleton_sublist.mpr member).append (List.singleton_sublist.mpr List.mem_cons_self)
  · intro rising scan
    rw [answer,wanted]
    refine take_descending n ((List.mergeSort_perm _ _).trans (scan.perm _)) (descending _) ?_
    intro before row after split few
    have short : after.length < (table.filter query.selects).length := by rw [split]; simp; omega
    exact rising before row after split ((inside _ short).mpr few)

/-- After any writes, by any principals, a query answers with the newest events first exactly
when each event within the limit stands later in its principal's chain than every earlier
event of the query stands in its own. -/
theorem newest_first_iff (host : Host) (writes : List Write) (query : EventQuery) (limit : UInt64) :
    (∀ scan, query.rows scan (runWrites host [] writes) limit = query.newest (runWrites host [] writes) limit) ↔
      Rising limit ((runWrites host [] writes).filter query.selects) := by
  have valid := runWrites_chained host writes
  exact newest_iff_rising query limit (List.Nodup.of_map _ valid.distinct)

/-- One writer alone never sees the difference. -/
theorem rising_of_one_principal {p : String} (valid : Chained host table) (one : ∀ row ∈ table, row.principalId = p)
    (query : EventQuery) (limit : UInt64) : Rising limit (table.filter query.selects) := by
  have own : rowsOf p table = table := List.filter_eq_self.mpr (fun row member => decide_eq_true (one row member))
  have seqs : table.map EventRow.seqNum = (List.range table.length).map (fun (i : Nat) => (i : Int)) := by
    have linked := (chain host p).chained_seqs (valid.linked p)
    rw [own] at linked
    simpa [chain] using linked
  have rising : table.Pairwise (fun a b => a.seqNum < b.seqNum) := by
    have ascending : (table.map EventRow.seqNum).Pairwise (· < ·) := by
      rw [seqs,List.pairwise_map]
      exact List.pairwise_lt_range.imp (fun less => Int.ofNat_lt.mpr less)
    exact List.pairwise_map.mp ascending
  intro before row after split _ old member
  have part := rising.filter query.selects
  rw [split] at part
  exact (List.pairwise_append.mp part).2.2 old member row List.mem_cons_self

end

/-- A write of a principal into one namespace. -/
def noteWrite (eventId principalId : String) : Write :=
  .appendEventWithParent eventId "2026-01-01T00:00:00Z" principalId "default" "note" (.obj []) none none none

/-- Two events of one principal, then the first of another. -/
def threeNotes : List Write := [noteWrite "a-0" "alice", noteWrite "a-1" "alice", noteWrite "b-0" "bob"]

/-- The newest event of all is `b-0`, and asked for one event the ledger does not answer with it. -/
theorem newest_missed : ¬ ∀ (host : Host) (writes : List Write) (query : EventQuery) (limit : UInt64) (scan : ScanOrder),
    query.rows scan (runWrites host [] writes) limit = query.newest (runWrites host [] writes) limit := by
  intro all
  have valid := runWrites_chained sampleHost threeNotes
  have rising := (newest_iff_rising .listGlobalEvents 1 (List.Nodup.of_map _ valid.distinct)).mp
    (all sampleHost threeNotes .listGlobalEvents 1)
  have every : (runWrites sampleHost [] threeNotes).filter EventQuery.listGlobalEvents.selects =
      runWrites sampleHost [] threeNotes := List.filter_eq_self.mpr (fun _ _ => rfl)
  have seqs : (runWrites sampleHost [] threeNotes).map EventRow.seqNum = [0, 1, 0] := by decide +kernel
  rw [every] at rising
  match rows : runWrites sampleHost [] threeNotes with
  | [first, second, third] =>
    rw [rows] at seqs rising
    simp only [List.map_cons,List.map_nil,List.cons.injEq] at seqs
    have less := rising [first, second] third [] rfl (by decide) first List.mem_cons_self
    omega
  | [] | [_] | [_, _] | _ :: _ :: _ :: _ :: _ => simp [rows] at seqs

end Zaion.Ledger
