import Zaion.Ledger.Events

/-! The per-principal hash chain: what every write keeps, and what `verify_chain`
reports of a table that only writes have touched. -/
namespace Zaion.Ledger

open Lib

structure ChainVerifyResult where
  total : Nat
  verified : Nat
  brokenAt : Option Int
  deriving DecidableEq, Repr

/-- The loop of `verify_chain`: rows left, digest and position expected, rows verified. -/
def verifyRows (host : Host) (principalId : String) :
    List EventRow → String → Int → Nat → Except LedgerError (Nat × Option Int)
  | [], _, _, verified => .ok (verified, none)
  | row :: rest, expectedPrev, expectedSeq, verified =>
    if row.seqNum ≠ expectedSeq ∨ row.prevHash ≠ expectedPrev then .ok (verified, some row.seqNum)
    else if expectedSeq = i64Max then .error (.corruptChain "event sequence exhausted i64")
    else verifyRows host principalId rest (rowHash host principalId row) (expectedSeq + 1) (verified + 1)

def verifyChain (host : Host) (rows : List EventRow) (principalId : String) :
    Except LedgerError ChainVerifyResult := do
  let sorted := bySeq (rowsOf principalId rows)
  let walked ← verifyRows host principalId sorted genesisHash 0 0
  .ok ⟨sorted.length, walked.1, walked.2⟩

/-- The rows of each principal, in insertion order, continue its chain from genesis,
and the table fits into SQLite's row ids. -/
structure Chained (host : Host) (rows : List EventRow) : Prop where
  linked : ∀ p, (chain host p).Chained genesisHash 0 (rowsOf p rows)
  bounded : rows.length ≤ maxRows
  distinct : (rows.map EventRow.eventId).Nodup

theorem chained_nil (host : Host) : Chained host [] where
  linked := fun _ => trivial
  bounded := Nat.zero_le _
  distinct := List.nodup_nil

@[simp] theorem rowsOf_append (p : String) (a b : List EventRow) :
    rowsOf p (a ++ b) = rowsOf p a ++ rowsOf p b := by simp [rowsOf]

theorem rowsOf_own {p : String} {row : EventRow} (own : row.principalId = p) : rowsOf p [row] = [row] := by
  simp [rowsOf,own]

theorem rowsOf_foreign {p : String} {row : EventRow} (foreign : row.principalId ≠ p) :
    rowsOf p [row] = [] := by
  simp [rowsOf,foreign]

theorem rowsOf_length_le (p : String) (rows : List EventRow) : (rowsOf p rows).length ≤ rows.length :=
  List.length_filter_le _ _

theorem bySeq_chained {host : Host} {rows : List EventRow} (valid : Chained host rows) (p : String) :
    bySeq (rowsOf p rows) = rowsOf p rows :=
  (chain host p).mergeSort_chained (valid.linked p)

/-- On a chained table the next position is the number of the principal's rows and
the digest its last row hands on. -/
theorem nextChainPosition_chained {host : Host} {rows : List EventRow} (valid : Chained host rows)
    {p : String} {position : Int × String} (next : nextChainPosition host rows p = .ok position) :
    position = (((rowsOf p rows).length : Int), (chain host p).tail genesisHash (rowsOf p rows)) := by
  simp only [nextChainPosition,bySeq_chained valid] at next
  rcases shape : (rowsOf p rows).getLast? with _ | last
  · rw [List.getLast?_eq_none_iff] at shape
    rw [shape] at next ⊢
    simpa using next.symm
  · have linked := valid.linked p
    obtain ⟨front, split⟩ := List.getLast?_eq_some_iff.mp shape
    rw [split] at linked ⊢
    have position_last := ((chain host p).chained_snoc.mp linked).2.1
    simp only [shape] at next
    split at next
    · cases next
    · cases next
      simp only [chain,zero_add] at position_last
      simp [position_last,Link.tail,chain]

theorem findEvent_none {rows : List EventRow} {eventId : String} (h : findEvent rows eventId = none) :
    ∀ row ∈ rows, row.eventId ≠ eventId := by
  simpa [findEvent] using h

theorem findEvent_some {rows : List EventRow} {eventId : String} {row : EventRow}
    (h : findEvent rows eventId = some row) : row ∈ rows ∧ row.eventId = eventId :=
  ⟨List.mem_of_find?_eq_some h, by simpa using List.find?_some h⟩

theorem findEvent_of_mem {rows : List EventRow} {row : EventRow} (distinct : (rows.map EventRow.eventId).Nodup)
    (member : row ∈ rows) : findEvent rows row.eventId = some row := by
  rcases search : findEvent rows row.eventId with _ | other
  · exact absurd rfl (findEvent_none search row member)
  · obtain ⟨member', id⟩ := findEvent_some search
    rw [List.inj_on_of_nodup_map distinct member' member id]

theorem insertRow_ok {rows rows' : List EventRow} {row : EventRow} (h : insertRow rows row = .ok rows') :
    rows' = rows ++ [row] ∧ rows.length < maxRows ∧ ∀ r ∈ rows, r.eventId ≠ row.eventId := by
  simp only [insertRow,bind_ok_iff,ensure_ok_iff] at h
  obtain ⟨_, fresh, _, _, _, room, h⟩ := h
  exact ⟨(Except.ok.inj h).symm, room, fresh⟩

/-- What one append can do: nothing, or add one row at the principal's tail. -/
theorem append_cases {host : Host} {rows : List EventRow} {event : PreparedEvent}
    {policy : ExistingEventPolicy} {result : List EventRow × Bool} (valid : Chained host rows)
    (h : appendPreparedEventInTransaction host rows event policy = .ok result) :
    (∃ existing ∈ rows, existing.eventId = event.eventId ∧ equivalent policy existing event ∧
      result = (rows, false)) ∨
    ((∀ row ∈ rows, row.eventId ≠ event.eventId) ∧ rows.length < maxRows ∧
      result = (rows ++ [event.row (rowsOf event.principalId rows).length
        ((chain host event.principalId).tail genesisHash (rowsOf event.principalId rows))], true)) := by
  unfold appendPreparedEventInTransaction at h
  split at h
  next existing found =>
    simp only [bind_ok_iff,ensure_ok_iff] at h
    obtain ⟨_, same, h⟩ := h
    obtain ⟨member, id⟩ := findEvent_some found
    exact .inl ⟨existing, member, id, same, (Except.ok.inj h).symm⟩
  next missing =>
    simp only [bind_ok_iff] at h
    obtain ⟨position, next, rows', inserted, h⟩ := h
    have position_eq := nextChainPosition_chained valid next
    obtain ⟨rfl, room, _⟩ := insertRow_ok inserted
    refine .inr ⟨findEvent_none missing, room, ?_⟩
    rw [← Except.ok.inj h,position_eq]

/-- Appending the row the tail asks for keeps every principal's chain. -/
theorem chained_append_row {host : Host} {rows : List EventRow} {event : PreparedEvent}
    (valid : Chained host rows) (fresh : ∀ row ∈ rows, row.eventId ≠ event.eventId)
    (room : rows.length < maxRows) :
    Chained host (rows ++ [event.row (rowsOf event.principalId rows).length
      ((chain host event.principalId).tail genesisHash (rowsOf event.principalId rows))]) where
  linked := by
    intro p
    rw [rowsOf_append]
    by_cases same : event.principalId = p
    · subst same
      rw [rowsOf_own (by rfl),Link.chained_snoc]
      exact ⟨valid.linked _, by simp [chain,PreparedEvent.row], rfl⟩
    · rw [rowsOf_foreign (by exact same),List.append_nil]
      exact valid.linked p
  bounded := by rw [List.length_append]; exact room
  distinct := by
    rw [List.map_append,List.nodup_append]
    refine ⟨valid.distinct, List.nodup_singleton _, ?_⟩
    intro a member b new
    simp only [List.mem_map] at member
    obtain ⟨row, hrow, rfl⟩ := member
    simp only [List.map_cons,List.map_nil,List.mem_singleton] at new
    subst new
    exact fresh row hrow

/-- Successful appends of whole events, one after the other. -/
inductive Appends (host : Host) : List EventRow → List EventRow → Prop
  | refl (rows : List EventRow) : Appends host rows rows
  | step {rows middle rows' : List EventRow} {event : LedgerEvent} {policy : ExistingEventPolicy}
      {inserted : Bool}
      (append : appendPreparedEventInTransaction host rows (event.prepared host) policy = .ok (middle, inserted))
      (rest : Appends host middle rows') : Appends host rows rows'

theorem Appends.single {host : Host} {rows : List EventRow} {event : LedgerEvent}
    {policy : ExistingEventPolicy} {result : List EventRow × Bool}
    (h : appendPreparedEventInTransaction host rows (event.prepared host) policy = .ok result) :
    Appends host rows result.1 := .step h (.refl _)

theorem Appends.trans {host : Host} {a b c : List EventRow} (first : Appends host a b)
    (second : Appends host b c) : Appends host a c := by
  induction first with
  | refl => exact second
  | step append _ ih => exact .step append (ih second)

theorem insertEvents_appends {host : Host} {rows : List EventRow} {events : List LedgerEvent}
    {result : List EventRow × List EventInsertDisposition}
    (h : insertEventsWithIdsAtomic host rows events = .ok result) : Appends host rows result.1 := by
  induction events generalizing rows result with
  | nil => cases h; exact .refl _
  | cons event events ih =>
    simp only [insertEventsWithIdsAtomic,bind_ok_iff] at h
    obtain ⟨step, first, rest, later, h⟩ := h
    cases h
    have more := ih later
    exact .step first more

/-- Every write is an append or a batch of appends. -/
theorem write_appends {host : Host} {rows rows' : List EventRow} {write : Write}
    (h : write.exec host rows = .ok rows') : Appends host rows rows' := by
  cases write with
  | insertEventsWithIdsAtomic events =>
    obtain ⟨result, ok, rfl⟩ := map_ok_iff.mp h
    exact insertEvents_appends ok
  | appendSignedIdempotentEventWithParent =>
    obtain ⟨result, ok, rfl⟩ := map_ok_iff.mp h
    simp only [appendSignedIdempotentEventWithParent,bind_ok_iff] at ok
    obtain ⟨_, _, ok⟩ := ok
    exact .single ok
  | appendEventWithParent =>
    obtain ⟨result, ok, rfl⟩ := map_ok_iff.mp h
    exact .single ok
  | appendSignedEventWithParent =>
    obtain ⟨result, ok, rfl⟩ := map_ok_iff.mp h
    exact .single ok
  | insertEventWithIdAndParent =>
    obtain ⟨result, ok, rfl⟩ := map_ok_iff.mp h
    exact .single ok

theorem apply_appends (host : Host) (rows : List EventRow) (write : Write) :
    Appends host rows (write.apply host rows) := by
  unfold Write.apply
  split
  next rows' h => exact write_appends h
  next => exact .refl _

theorem runWrites_appends (host : Host) (rows : List EventRow) (writes : List Write) :
    Appends host rows (runWrites host rows writes) := by
  induction writes generalizing rows with
  | nil => exact .refl _
  | cons write writes ih => exact (apply_appends host rows write).trans (ih _)

theorem appends_chained {host : Host} {rows rows' : List EventRow} (appends : Appends host rows rows')
    (valid : Chained host rows) : Chained host rows' := by
  induction appends with
  | refl => exact valid
  | step append _ ih =>
    rcases append_cases valid append with ⟨_, _, _, _, same⟩ | ⟨fresh, room, grown⟩
    · cases same; exact ih valid
    · cases grown; exact ih (chained_append_row valid fresh room)

/-- Rows are only added behind the old ones. -/
theorem valid_of_appends {host : Host} {rows rows' : List EventRow} (appends : Appends host rows rows')
    (valid : Chained host rows) : rows <+: rows' := by
  induction appends with
  | refl => exact List.prefix_refl _
  | step append _ ih =>
    rcases append_cases valid append with ⟨_, _, _, _, same⟩ | ⟨fresh, room, grown⟩
    · cases same; exact ih valid
    · cases grown
      exact (List.prefix_append _ _).trans (ih (chained_append_row valid fresh room))

theorem runWrites_chained (host : Host) (writes : List Write) :
    Chained host (runWrites host [] writes) :=
  appends_chained (runWrites_appends host [] writes) (chained_nil host)

theorem seqNum_inside {host : Host} {rows : List EventRow} (valid : Chained host rows) {p : String}
    {row : EventRow} (member : row ∈ rowsOf p rows) : row.seqNum < (rowsOf p rows).length := by
  obtain ⟨i, bound, rfl⟩ := List.mem_iff_getElem.mp member
  have position := ((chain host p).chained_get (valid.linked p) i bound).1
  simp only [chain,zero_add] at position
  omega

/-- The sequence of a chained table with room is never exhausted. -/
theorem nextChainPosition_ok {host : Host} {rows : List EventRow} (valid : Chained host rows)
    (room : rows.length < maxRows) (p : String) :
    ∃ position, nextChainPosition host rows p = .ok position := by
  simp only [nextChainPosition,bySeq_chained valid]
  rcases shape : (rowsOf p rows).getLast? with _ | last
  · exact ⟨_, rfl⟩
  · have inside := seqNum_inside valid (List.mem_of_getLast? shape)
    have count := rowsOf_length_le p rows
    have below : last.seqNum ≠ i64Max := by
      unfold i64Max; unfold maxRows at room; omega
    exact ⟨_, if_neg below⟩

theorem insertRow_fresh {rows : List EventRow} {row : EventRow}
    (fresh : ∀ r ∈ rows, r.eventId ≠ row.eventId)
    (unique : ∀ r ∈ rows, ¬ (r.principalId = row.principalId ∧ r.seqNum = row.seqNum))
    (room : rows.length < maxRows) : insertRow rows row = .ok (rows ++ [row]) := by
  simp only [insertRow,ensure_of fresh,ensure_of unique,ensure_of room,ok_bind]

/-- On a chained table with room an append under a fresh id adds one row. -/
theorem append_fresh {host : Host} {rows : List EventRow} {event : PreparedEvent}
    (policy : ExistingEventPolicy) (valid : Chained host rows)
    (fresh : ∀ row ∈ rows, row.eventId ≠ event.eventId) (room : rows.length < maxRows) :
    ∃ seqNum prevHash, appendPreparedEventInTransaction host rows event policy =
      .ok (rows ++ [event.row seqNum prevHash], true) := by
  have missing : findEvent rows event.eventId = none := by simpa [findEvent] using fresh
  obtain ⟨position, next⟩ := nextChainPosition_ok valid room event.principalId
  have position_eq := nextChainPosition_chained valid next
  have unique : ∀ r ∈ rows, ¬ (r.principalId = event.principalId ∧ r.seqNum = position.1) := by
    rintro r member ⟨own, at_position⟩
    have in_chain : r ∈ rowsOf event.principalId rows := by simp [rowsOf,member,own]
    have inside := seqNum_inside valid in_chain
    rw [at_position,position_eq] at inside
    exact lt_irrefl _ inside
  have inserted : insertRow rows (event.row position.1 position.2) =
      .ok (rows ++ [event.row position.1 position.2]) := insertRow_fresh fresh unique room
  exact ⟨position.1, position.2, by simp only [appendPreparedEventInTransaction,missing,next,inserted,ok_bind]⟩

/-- Walking a chain that stays below the last `i64` verifies all of it. -/
theorem verifyRows_chained {host : Host} {p : String} {rows : List EventRow} {prev : String}
    {seq : Int} {verified : Nat} (linked : (chain host p).Chained prev seq rows)
    (room : seq + rows.length ≤ i64Max) :
    verifyRows host p rows prev seq verified = .ok (verified + rows.length, none) := by
  induction rows generalizing prev seq verified with
  | nil => rfl
  | cons row rest ih =>
    obtain ⟨at_seq, at_prev, later⟩ := linked
    have at_seq : row.seqNum = seq := at_seq
    have at_prev : row.prevHash = prev := at_prev
    simp only [List.length_cons,Nat.cast_add,Nat.cast_one] at room
    have inside : seq ≠ i64Max := by omega
    have rest_ok : verifyRows host p rest (rowHash host p row) (seq + 1) (verified + 1) =
        .ok (verified + 1 + rest.length, none) := ih later (by omega)
    simp only [verifyRows,at_seq,at_prev,ne_eq,not_true_eq_false,or_self,if_false,inside]
    rw [rest_ok]
    simp only [List.length_cons]
    congr 2
    omega

/-- .. and a walk without a break has walked a chain. -/
theorem chained_of_verifyRows {host : Host} {p : String} {rows : List EventRow} {prev : String} {seq : Int}
    {verified total : Nat} (walked : verifyRows host p rows prev seq verified = .ok (total, none)) :
    (chain host p).Chained prev seq rows := by
  induction rows generalizing prev seq verified with
  | nil => trivial
  | cons row rest ih =>
    rw [verifyRows] at walked
    split at walked
    · cases walked
    · rename_i linked
      obtain ⟨seq_eq, prev_eq⟩ : row.seqNum = seq ∧ row.prevHash = prev := by simpa using linked
      split at walked
      · cases walked
      · subst seq_eq
        exact ⟨rfl, prev_eq, ih walked⟩

theorem verifyChain_chained {host : Host} {rows : List EventRow} (valid : Chained host rows) (p : String) :
    verifyChain host rows p = .ok ⟨(rowsOf p rows).length, (rowsOf p rows).length, none⟩ := by
  have room : (0 : Int) + (rowsOf p rows).length ≤ i64Max := by
    have h := (rowsOf_length_le p rows).trans valid.bounded
    unfold maxRows at h; unfold i64Max; omega
  simp [verifyChain,bySeq_chained valid,verifyRows_chained (valid.linked p) room]

/-- Whatever writes committed before, `verify_chain` accepts every principal whole, its
positions are 0 .. n-1 in append order, and no later write touches a stored event. -/
theorem writes_keep_chain (host : Host) (before later : List Write) (p : String) :
    let rows := runWrites host [] before
    verifyChain host rows p = .ok ⟨(rowsOf p rows).length, (rowsOf p rows).length, none⟩ ∧
    (rowsOf p rows).map EventRow.seqNum =
      (List.range (rowsOf p rows).length).map (fun (i : Nat) => (i : Int)) ∧
    rows <+: runWrites host [] (before ++ later) := by
  have valid := runWrites_chained host before
  refine ⟨verifyChain_chained valid p, ?_, ?_⟩
  · simpa [chain] using (chain host p).chained_seqs (valid.linked p)
  · rw [show runWrites host [] (before ++ later) = runWrites host (runWrites host [] before) later
      from List.foldl_append ..]
    exact valid_of_appends (runWrites_appends ..) valid

end Zaion.Ledger
