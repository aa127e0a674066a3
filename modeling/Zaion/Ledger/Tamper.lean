import Zaion.Ledger.Chain
import Zaion.Sample

/-! What the digest of the last event says about the events before it. `event_hash`
reads six columns and leaves `prev_hash` out, and it joins them with a bar that the
columns may hold themselves. -/
namespace Zaion.Ledger

open Lib

/-- A table SQLite can hold: distinct primary keys, no more rows than row ids. -/
structure Table (rows : List EventRow) : Prop where
  bounded : rows.length ≤ maxRows
  distinct : (rows.map EventRow.eventId).Nodup

/-- `verify_chain` reports no break. -/
def Accepted (host : Host) (p : String) (rows : List EventRow) : Prop :=
  ∃ total verified, verifyChain host rows p = .ok ⟨total, verified, none⟩

/-- `event_id`, `event_type`, `payload_json`, `created_at` and `seq_num`. -/
def content (row : EventRow) : String × String × String × String × Int :=
  (row.eventId, row.eventType, row.payloadJson, row.createdAt, row.seqNum)

/-- The last of `n` events fixes the content of all `n`. -/
def TailCommits (host : Host) (p : String) (n : Nat) : Prop :=
  ∀ a b : List EventRow, Table a → Table b → Accepted host p a → Accepted host p b →
    (rowsOf p a).length = n → (rowsOf p b).length = n →
    (bySeq (rowsOf p a)).getLast? = (bySeq (rowsOf p b)).getLast? →
    (bySeq (rowsOf p a)).map content = (bySeq (rowsOf p b)).map content

theorem bySeq_length (rows : List EventRow) : (bySeq rows).length = rows.length :=
  List.length_mergeSort _

theorem tailCommits_of_le_one (host : Host) (p : String) {n : Nat} (few : n ≤ 1) :
    TailCommits host p n := by
  intro a b _ _ _ _ count_a count_b last
  rw [← bySeq_length] at count_a count_b
  rcases shape_a : bySeq (rowsOf p a) with _ | ⟨x, _ | ⟨y, rest⟩⟩
  · rw [shape_a] at count_a
    rw [← count_a] at count_b
    rw [List.length_eq_zero_iff.mp count_b]
  · rw [shape_a] at count_a last
    obtain ⟨z, single⟩ := List.length_eq_one_iff.mp (count_b.trans count_a.symm)
    rw [single] at last ⊢
    simp only [List.getLast?_singleton,Option.some.injEq] at last
    rw [last]
  · rw [shape_a] at count_a
    simp only [List.length_cons] at count_a
    omega

theorem tailCommits_of_overfull (host : Host) (p : String) {n : Nat} (many : maxRows < n) :
    TailCommits host p n := by
  intro a _ table _ _ _ count
  have fits := (rowsOf_length_le p a).trans table.bounded
  omega

/-- A chain of `p`'s own rows is accepted. -/
theorem accepted_of_chained {host : Host} {p : String} {rows : List EventRow}
    (own : rowsOf p rows = rows) (linked : (chain host p).Chained genesisHash 0 rows)
    (bounded : rows.length ≤ maxRows) : Accepted host p rows := by
  have room : (0 : Int) + rows.length ≤ i64Max := by
    unfold maxRows at bounded; unfold i64Max; omega
  refine ⟨rows.length, 0 + rows.length, ?_⟩
  rw [verifyChain,own,show bySeq rows = rows from (chain host p).mergeSort_chained linked,
    verifyRows_chained linked room]
  rfl

/-- Rewriting the first event and the `prev_hash` of the second keeps the chain: no
digest of a later event reads either. -/
theorem chained_rewrite {host : Host} {p : String} {second : EventRow} {rest : List EventRow}
    (first first' : EventRow) (position : first'.seqNum = first.seqNum)
    (start : first'.prevHash = first.prevHash)
    (linked : (chain host p).Chained genesisHash 0 (first :: second :: rest)) :
    (chain host p).Chained genesisHash 0
      (first' :: { second with prevHash := rowHash host p first' } :: rest) := by
  obtain ⟨seq, prev, seq_second, _, later⟩ := linked
  exact ⟨position.trans seq, start.trans prev, seq_second, rfl, later⟩

theorem not_tailCommits {host : Host} {p : String} {a b : List EventRow}
    (own_a : rowsOf p a = a) (own_b : rowsOf p b = b)
    (linked_a : (chain host p).Chained genesisHash 0 a) (linked_b : (chain host p).Chained genesisHash 0 b)
    (ids : a.map EventRow.eventId = b.map EventRow.eventId) (distinct : (a.map EventRow.eventId).Nodup)
    (bounded : a.length ≤ maxRows) (last : a.getLast? = b.getLast?)
    (differ : a.map content ≠ b.map content) : ¬ TailCommits host p a.length := by
  intro commits
  have count : b.length = a.length := by simpa using (congrArg List.length ids).symm
  have table_a : Table a := ⟨bounded, distinct⟩
  have table_b : Table b := ⟨count ▸ bounded, ids ▸ distinct⟩
  have sorted_a : bySeq (rowsOf p a) = a := by rw [own_a]; exact (chain host p).mergeSort_chained linked_a
  have sorted_b : bySeq (rowsOf p b) = b := by rw [own_b]; exact (chain host p).mergeSort_chained linked_b
  have same := commits a b table_a table_b (accepted_of_chained own_a linked_a bounded)
    (accepted_of_chained own_b linked_b (count ▸ bounded)) (by rw [own_a]) (by rw [own_b,count])
    (by rw [sorted_a,sorted_b,last])
  rw [sorted_a,sorted_b] at same
  exact differ same

/-- The event a principal with last event `previous` might append next. -/
def successor (host : Host) (p : String) (previous : EventRow) : EventRow where
  eventId := previous.eventId ++ "+"
  principalId := p
  namespaceKey := "main"
  runId := none
  eventType := "note"
  payloadJson := "null"
  signatureHex := none
  createdAt := "2026-01-01T00:00:00.000Z"
  seqNum := previous.seqNum + 1
  prevHash := rowHash host p previous
  parentEventId := none

def successors (host : Host) (p : String) : EventRow → Nat → List EventRow
  | _, 0 => []
  | previous, n + 1 => successor host p previous :: successors host p (successor host p previous) n

@[simp] theorem successors_length (host : Host) (p : String) (previous : EventRow) (n : Nat) :
    (successors host p previous n).length = n := by
  induction n generalizing previous with
  | zero => rfl
  | succ n ih => simp [successors,ih]

theorem successors_own (host : Host) (p : String) (previous : EventRow) (n : Nat) :
    rowsOf p (successors host p previous n) = successors host p previous n := by
  induction n generalizing previous with
  | zero => rfl
  | succ n ih =>
    rw [successors,← List.singleton_append,rowsOf_append,rowsOf_own (by rfl),ih]

theorem successors_chained (host : Host) (p : String) (previous : EventRow) (n : Nat) :
    (chain host p).Chained (rowHash host p previous) (previous.seqNum + 1)
      (successors host p previous n) := by
  induction n generalizing previous with
  | zero => trivial
  | succ n ih => exact ⟨rfl, rfl, ih _⟩

theorem successors_longer (host : Host) (p : String) (previous : EventRow) (n : Nat) :
    ∀ row ∈ successors host p previous n, previous.eventId.length < row.eventId.length := by
  induction n generalizing previous with
  | zero => simp [successors]
  | succ n ih =>
    have grows : (successor host p previous).eventId.length = previous.eventId.length + 1 :=
      String.length_append _ "+"
    intro row member
    rcases List.mem_cons.mp member with rfl | later
    · omega
    · have := ih _ row later
      omega

theorem successors_distinct (host : Host) (p : String) (previous : EventRow) (n : Nat) :
    ((previous :: successors host p previous n).map EventRow.eventId).Nodup := by
  induction n generalizing previous with
  | zero => simp [successors]
  | succ n ih =>
    rw [List.map_cons,List.nodup_cons]
    refine ⟨?_, ih _⟩
    rw [List.mem_map]
    rintro ⟨row, member, same⟩
    have longer := successors_longer host p previous (n + 1) row member
    rw [same] at longer
    exact lt_irrefl _ longer

/-- A first event of `p`; its type, payload and time stand in the digest text one after
the other. -/
def opening (p eventType payloadJson createdAt : String) : EventRow where
  eventId := "evt"
  principalId := p
  namespaceKey := "main"
  runId := none
  eventType := eventType
  payloadJson := payloadJson
  signatureHex := none
  createdAt := createdAt
  seqNum := 0
  prevHash := genesisHash
  parentEventId := none

theorem opening_chained (host : Host) (p eventType payloadJson createdAt : String) (n : Nat) :
    (chain host p).Chained genesisHash 0 (opening p eventType payloadJson createdAt ::
      successors host p (opening p eventType payloadJson createdAt) n) :=
  ⟨rfl, rfl, successors_chained host p _ n⟩

theorem opening_own (p eventType payloadJson createdAt : String) {rest : List EventRow}
    (own : rowsOf p rest = rest) :
    rowsOf p (opening p eventType payloadJson createdAt :: rest) =
      opening p eventType payloadJson createdAt :: rest := by
  rw [← List.singleton_append,rowsOf_append,rowsOf_own (by rfl),own]

/-- With two events the bar between type, payload and time is the only defect left: the
last event stores the digest of the first, which reads in two ways. -/
theorem not_tailCommits_two (host : Host) (p : String) : ¬ TailCommits host p 2 := by
  let first := opening p "chat|1" "2" "2026-01-01T00:00:00.000Z"
  let first' := opening p "chat" "1" "2|2026-01-01T00:00:00.000Z"
  have digest : rowHash host p first = rowHash host p first' := by
    simp [rowHash,eventHash,first,first',opening,String.append_assoc]
  have linked' : (chain host p).Chained genesisHash 0 (first' :: successors host p first 1) :=
    ⟨rfl, rfl, rfl, digest, trivial⟩
  have own := successors_own host p first 1
  refine not_tailCommits (a := first :: successors host p first 1) (opening_own p _ _ _ own)
    (opening_own p _ _ _ own) (opening_chained host p _ _ _ 1) linked' rfl
    (successors_distinct host p first 1) (by simp [maxRows]) rfl ?_
  simp [first,opening,content]

/-- From three events on any rewriting of the first one is hidden by the `prev_hash` of
the second. -/
theorem not_tailCommits_three (host : Host) (p : String) (n : Nat) (fits : n + 3 ≤ maxRows) :
    ¬ TailCommits host p (n + 3) := by
  let first := opening p "note" "1" "2026-01-01T00:00:00.000Z"
  let first' := opening p "note" "2" "2026-01-01T00:00:00.000Z"
  let second := successor host p first
  let rest := successors host p second (n + 1)
  have linked := opening_chained host p "note" "1" "2026-01-01T00:00:00.000Z" (n + 2)
  have own := successors_own host p second (n + 1)
  have own' : rowsOf p ({ second with prevHash := rowHash host p first' } :: rest) =
      { second with prevHash := rowHash host p first' } :: rest := by
    rw [← List.singleton_append,rowsOf_append,rowsOf_own (by rfl),own]
  have linked' := chained_rewrite first first' rfl rfl linked
  have length : (first :: successors host p first (n + 2)).length = n + 3 := by simp
  rw [← length]
  refine not_tailCommits (opening_own p _ _ _ (successors_own host p first (n + 2)))
    (opening_own p _ _ _ own') linked linked' rfl
    (successors_distinct host p first (n + 2)) (length ▸ fits) ?_ ?_
  · simp only [successors,rest,second,List.getLast?_cons_cons]
  · simp [first,first',opening,content]

/-- A tool call that `zaion1alice` recorded, and the one a forger puts in its place. -/
def toolCall (payloadJson : String) : EventRow :=
  opening "zaion1alice" "tool.call" payloadJson "2026-01-01T00:00:00.000Z"

def honest : List EventRow :=
  toolCall "\"ls\"" :: successors sampleHost "zaion1alice" (toolCall "\"ls\"") 2

/-- Another first payload, and its digest as `prev_hash` of the second event; the last event
is untouched. -/
def forged : List EventRow :=
  let second := successor sampleHost "zaion1alice" (toolCall "\"ls\"")
  toolCall "\"rm\"" :: { second with prevHash := rowHash sampleHost "zaion1alice" (toolCall "\"rm\"") } ::
    successors sampleHost "zaion1alice" second 1

end Zaion.Ledger
