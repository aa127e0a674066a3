import Zaion.Ledger.Tamper

/-! One stored event is edited in place: its type, payload and time, with its id, principal,
position and `prev_hash` as they were. `event_hash` joins the three texts with bars, so the
digest reads where they end only as far as the bars in them tell. -/
namespace Zaion.Ledger

open Lib

/-- The text that `event_hash` digests. -/
def hashText (p : String) (row : EventRow) : String :=
  row.eventId ++ "|" ++ p ++ "|" ++ row.eventType ++ "|" ++ row.payloadJson ++ "|" ++ row.createdAt ++ "|" ++
    toString row.seqNum

/-- The part of it that is edited. -/
def joined (eventType payloadJson createdAt : String) : String := eventType ++ "|" ++ payloadJson ++ "|" ++ createdAt

def EventRow.edit (row : EventRow) (eventType payloadJson createdAt : String) : EventRow :=
  { row with eventType := eventType, payloadJson := payloadJson, createdAt := createdAt }

/-- `verify_chain` reports a break. -/
def Broken (host : Host) (p : String) (rows : List EventRow) : Prop :=
  ∃ total verified seq, verifyChain host rows p = .ok ⟨total, verified, some seq⟩

/-- The two texts do not collide under SHA-256. -/
def Apart (host : Host) (a b : String) : Prop := host.sha256Hex (Host.utf8 a) = host.sha256Hex (Host.utf8 b) → a = b

theorem rowHash_eq (host : Host) (p : String) (row : EventRow) :
    rowHash host p row = host.sha256Hex (Host.utf8 (hashText p row)) :=
  rfl

section

variable {host : Host} {p : String} {row row' next : EventRow} {before after pre rest : List EventRow}

theorem hashText_edit {eventType payloadJson createdAt : String} :
    hashText p (row.edit eventType payloadJson createdAt) = hashText p row ↔
      joined eventType payloadJson createdAt = joined row.eventType row.payloadJson row.createdAt := by
  have split (a b c : String) : hashText p (row.edit a b c) =
      (row.eventId ++ "|" ++ p ++ "|") ++ joined a b c ++ ("|" ++ toString row.seqNum) := by
    simp [hashText,joined,EventRow.edit,String.append_assoc]
  have own : hashText p row = hashText p (row.edit row.eventType row.payloadJson row.createdAt) := rfl
  rw [own,split,split]
  constructor
  · intro same
    have chars := congrArg String.toList same
    simp only [String.toList_append] at chars
    rw [List.append_left_inj] at chars
    exact String.toList_injective (List.append_cancel_left chars)
  · intro same
    rw [same]

/-- A text is cut at its first bar in one way. -/
theorem cut_first {α : Type} {bar : α} {a a' b b' : List α} (first : bar ∉ a) (first' : bar ∉ a')
    (same : a ++ bar :: b = a' ++ bar :: b') : a = a' ∧ b = b' := by
  rcases List.append_eq_append_iff.mp same with ⟨more, rfl, rest⟩ | ⟨more, rfl, rest⟩
  · cases more with
    | nil => simpa using rest
    | cons head more =>
      obtain ⟨rfl, -⟩ := List.cons.inj rest
      simp at first'
  · cases more with
    | nil => simpa using rest.symm
    | cons head more =>
      obtain ⟨rfl, -⟩ := List.cons.inj rest
      simp at first

/-- .. and at its last one. -/
theorem cut_last {α : Type} {bar : α} {a a' b b' : List α} (last : bar ∉ b) (last' : bar ∉ b')
    (same : a ++ bar :: b = a' ++ bar :: b') : a = a' ∧ b = b' := by
  have flipped := congrArg List.reverse same
  simp only [List.reverse_append,List.reverse_cons,List.append_assoc,List.singleton_append] at flipped
  obtain ⟨after, before⟩ := cut_first (by simpa using last) (by simpa using last') flipped
  exact ⟨List.reverse_injective before, List.reverse_injective after⟩

/-- Without bars in the first and last parts the joined text tells the parts. -/
theorem joined_injective {a b c a' b' c' : String} (first : '|' ∉ a.toList) (first' : '|' ∉ a'.toList)
    (last : '|' ∉ c.toList) (last' : '|' ∉ c'.toList) (same : joined a b c = joined a' b' c') :
    a = a' ∧ b = b' ∧ c = c' := by
  have chars := congrArg String.toList same
  have bar : "|".toList = ['|'] := rfl
  simp only [joined,String.toList_append,bar,List.append_assoc,List.singleton_append] at chars
  obtain ⟨same_a, later⟩ := cut_first first first' chars
  obtain ⟨same_b, same_c⟩ := cut_last last last' later
  exact ⟨String.toList_injective same_a, String.toList_injective same_b, String.toList_injective same_c⟩

theorem rowsOf_split (own : row.principalId = p) :
    rowsOf p (before ++ row :: after) = rowsOf p before ++ row :: rowsOf p after := by
  simp [rowsOf,own]

/-- Replacing a row by one at its position replaces it in the order of positions. -/
theorem bySeq_replace (own : row.principalId = p) (own' : row'.principalId = p) (position : row'.seqNum = row.seqNum)
    (sorted : bySeq (rowsOf p (before ++ row :: after)) = pre ++ row :: rest)
    (increasing : (pre ++ row :: rest).Pairwise (fun a b => a.seqNum < b.seqNum)) :
    bySeq (rowsOf p (before ++ row' :: after)) = pre ++ row' :: rest := by
  refine mergeSort_of_perm EventRow.seqNum ?_ ?_
  · have perm := List.mergeSort_perm (rowsOf p (before ++ row :: after)) (fun a b => decide (a.seqNum ≤ b.seqNum))
    rw [show List.mergeSort _ _ = _ from sorted,rowsOf_split own] at perm
    have others : (rowsOf p before ++ rowsOf p after).Perm (pre ++ rest) :=
      ((List.perm_middle.symm.trans perm.symm).trans List.perm_middle).cons_inv
    rw [rowsOf_split own']
    exact (List.perm_middle.trans (others.cons row')).trans List.perm_middle.symm
  · simpa [List.pairwise_append,position] using increasing

/-- The walk after an edit: the same where the digest is, a break at the next row where not. -/
theorem verifyRows_edit {prev : String} {seq : Int} {verified total : Nat}
    (walked : verifyRows host p (pre ++ row :: next :: rest) prev seq verified = .ok (total, none))
    (position : row'.seqNum = row.seqNum) (link : row'.prevHash = row.prevHash) :
    if rowHash host p row' = rowHash host p row
      then verifyRows host p (pre ++ row' :: next :: rest) prev seq verified = .ok (total, none)
      else ∃ n, verifyRows host p (pre ++ row' :: next :: rest) prev seq verified = .ok (n, some next.seqNum) := by
  induction pre generalizing prev seq verified with
  | nil =>
    rw [List.nil_append,verifyRows] at walked
    rw [List.nil_append,verifyRows,position,link]
    split at walked
    · cases walked
    · rename_i linked
      rw [if_neg linked]
      split at walked
      · cases walked
      · rename_i inside
        rw [if_neg inside]
        split
        · rename_i same
          rw [same]
          exact walked
        · rename_i differ
          have stored := (chained_of_verifyRows walked).2.1
          have unlinked : next.prevHash ≠ rowHash host p row' := fun again => differ (again.symm.trans stored)
          exact ⟨verified + 1, by rw [verifyRows,if_pos (.inr unlinked)]⟩
  | cons first pre ih =>
    rw [List.cons_append,verifyRows] at walked
    rw [List.cons_append,verifyRows]
    split at walked
    · cases walked
    · rename_i linked
      rw [if_neg linked]
      split at walked
      · cases walked
      · rename_i inside
        rw [if_neg inside]
        exact ih walked

/-- An accepted table in the order of positions, around one of its rows that is not the last. -/
theorem accepted_split {p : String} (accepted : Accepted host p (before ++ row :: after)) (own : row.principalId = p)
    (inner : ∃ later ∈ before ++ after, later.principalId = p ∧ row.seqNum < later.seqNum) :
    ∃ pre next rest total, bySeq (rowsOf p (before ++ row :: after)) = pre ++ row :: next :: rest ∧
      (pre ++ row :: next :: rest).Pairwise (fun a b => a.seqNum < b.seqNum) ∧
      verifyRows host p (pre ++ row :: next :: rest) genesisHash 0 0 = .ok (total, none) := by
  obtain ⟨_, _, verified⟩ := accepted
  simp only [verifyChain,bind_ok_iff] at verified
  obtain ⟨⟨total, broken⟩, walked, result⟩ := verified
  simp only [Except.ok.injEq,ChainVerifyResult.mk.injEq] at result
  obtain ⟨-, -, rfl⟩ := result
  have increasing := (chain host p).chained_increasing (chained_of_verifyRows walked)
  have members : ∀ r, r ∈ bySeq (rowsOf p (before ++ row :: after)) ↔
      r ∈ before ++ row :: after ∧ r.principalId = p := by
    intro r
    simp only [bySeq,List.mem_mergeSort,rowsOf,List.mem_filter,decide_eq_true_eq]
  obtain ⟨pre, rest, sorted⟩ := List.append_of_mem ((members row).mpr ⟨by simp, own⟩)
  obtain ⟨later, inside, own_later, behind⟩ := inner
  have found := (members later).mpr ⟨by simp only [List.mem_append,List.mem_cons] at inside ⊢; tauto, own_later⟩
  rw [sorted] at found walked increasing
  cases rest with
  | nil =>
    have below := List.pairwise_append.mp increasing
    rcases List.mem_append.mp found with early | last
    · have : later.seqNum < row.seqNum := below.2.2 later early row (by simp)
      omega
    · rw [List.mem_singleton.mp last] at behind
      omega
  | cons next rest => exact ⟨pre, next, rest, total, sorted, increasing, walked⟩

end

/-- Every edit of an event of `p` that is not its last is reported. -/
def EditsReported (host : Host) (p : String) : Prop :=
  ∀ (before after : List EventRow) (row : EventRow), Accepted host p (before ++ row :: after) → row.principalId = p →
    (∃ later ∈ before ++ after, later.principalId = p ∧ row.seqNum < later.seqNum) →
    ∀ eventType payloadJson createdAt : String,
      (eventType, payloadJson, createdAt) ≠ (row.eventType, row.payloadJson, row.createdAt) →
      Broken host p (before ++ row.edit eventType payloadJson createdAt :: after)

/-- Editing the type, payload and time of an event that is not the last is reported just when
the three texts joined by bars change; so it is whenever no bar stands in the types and times. -/
theorem edit_reported (host : Host) (p : String) (before after : List EventRow) (row : EventRow)
    (accepted : Accepted host p (before ++ row :: after)) (own : row.principalId = p)
    (inner : ∃ later ∈ before ++ after, later.principalId = p ∧ row.seqNum < later.seqNum)
    (eventType payloadJson createdAt : String)
    (apart : Apart host (hashText p (row.edit eventType payloadJson createdAt)) (hashText p row)) :
    (Broken host p (before ++ row.edit eventType payloadJson createdAt :: after) ↔
      joined eventType payloadJson createdAt ≠ joined row.eventType row.payloadJson row.createdAt) ∧
    (hashText p (row.edit eventType payloadJson createdAt) = hashText p row ↔
      joined eventType payloadJson createdAt = joined row.eventType row.payloadJson row.createdAt) ∧
    ('|' ∉ row.eventType.toList → '|' ∉ eventType.toList → '|' ∉ row.createdAt.toList → '|' ∉ createdAt.toList →
      (eventType, payloadJson, createdAt) ≠ (row.eventType, row.payloadJson, row.createdAt) →
      Broken host p (before ++ row.edit eventType payloadJson createdAt :: after)) := by
  obtain ⟨pre, next, rest, total, sorted, increasing, walked⟩ := accepted_split accepted own inner
  have replaced := @bySeq_replace _ _ (row.edit eventType payloadJson createdAt) _ _ _ _ own own rfl sorted increasing
  have edited := @verifyRows_edit _ _ _ (row.edit eventType payloadJson createdAt) _ _ _ _ _ _ _ walked rfl rfl
  have reported : Broken host p (before ++ row.edit eventType payloadJson createdAt :: after) ↔
      joined eventType payloadJson createdAt ≠ joined row.eventType row.payloadJson row.createdAt := by
    rw [← not_iff_not,not_not,← hashText_edit (p := p)]
    constructor
    · intro quiet
      by_contra differ
      have moved : rowHash host p (row.edit eventType payloadJson createdAt) ≠ rowHash host p row :=
        fun same => differ (apart same)
      rw [if_neg moved] at edited
      obtain ⟨n, stopped⟩ := edited
      exact quiet ⟨_, n, next.seqNum, by rw [verifyChain,replaced,stopped]; rfl⟩
    · rintro same ⟨_, _, seq, stopped⟩
      rw [rowHash_eq,rowHash_eq,same,if_pos rfl] at edited
      rw [verifyChain,replaced,edited] at stopped
      cases stopped
  refine ⟨reported, hashText_edit, ?_⟩
  intro first first' last last' differ
  refine reported.mpr fun same => differ ?_
  obtain ⟨rfl, rfl, rfl⟩ := joined_injective first' first last' last same
  rfl

/-- The first event of `zaion1alice`, with one event behind it. -/
def chat (eventType payloadJson createdAt : String) : EventRow := opening "zaion1alice" eventType payloadJson createdAt

def behind (row : EventRow) : List EventRow := successors sampleHost "zaion1alice" row 1

theorem accepted_chat (eventType payloadJson createdAt : String) :
    Accepted sampleHost "zaion1alice"
      (chat eventType payloadJson createdAt :: behind (chat eventType payloadJson createdAt)) :=
  accepted_of_chained (opening_own _ _ _ _ (successors_own ..)) (opening_chained ..) (by simp [behind,maxRows])

theorem payload_edit_reported :
    Broken sampleHost "zaion1alice" (chat "chat" "2" "2026-01-01T00:00:00.000Z" ::
      behind (chat "chat" "1" "2026-01-01T00:00:00.000Z")) := by
  refine (edit_reported sampleHost "zaion1alice" [] (behind (chat "chat" "1" "2026-01-01T00:00:00.000Z"))
    (chat "chat" "1" "2026-01-01T00:00:00.000Z") (accepted_chat ..) rfl ⟨_, List.mem_cons_self, rfl, by decide⟩
    "chat" "2" "2026-01-01T00:00:00.000Z" ?_).1.mpr (by decide)
  intro same
  exact toByteArray_toList_injective (sampleHost_collisionFree same)

/-- Moving the bars of an event moves the ends of its type, payload and time unseen. -/
theorem edit_unseen : sampleHost.CollisionFree ∧ ¬ EditsReported sampleHost "zaion1alice" := by
  refine ⟨sampleHost_collisionFree, fun reported => ?_⟩
  obtain ⟨_, _, seq, broken⟩ := reported [] (behind (chat "chat|1" "2" "2026-01-01T00:00:00.000Z"))
    (chat "chat|1" "2" "2026-01-01T00:00:00.000Z") (accepted_chat ..) rfl ⟨_, List.mem_cons_self, rfl, by decide⟩
    "chat" "1" "2|2026-01-01T00:00:00.000Z" (by decide)
  have digest : rowHash sampleHost "zaion1alice" (chat "chat|1" "2" "2026-01-01T00:00:00.000Z") =
      rowHash sampleHost "zaion1alice" (chat "chat" "1" "2|2026-01-01T00:00:00.000Z") := by
    simp [rowHash,eventHash,chat,opening]
  have linked : (chain sampleHost "zaion1alice").Chained genesisHash 0 (chat "chat" "1" "2|2026-01-01T00:00:00.000Z" ::
      behind (chat "chat|1" "2" "2026-01-01T00:00:00.000Z")) := ⟨rfl, rfl, rfl, digest, trivial⟩
  obtain ⟨_, _, accepted⟩ := accepted_of_chained (opening_own _ _ _ _ (successors_own ..)) linked (by simp [maxRows])
  cases broken.symm.trans accepted

end Zaion.Ledger
