import Zaion.Operation.Backlog
import Zaion.Lib.Find
import Zaion.Lib.Numbered

/-! Resuming a stream from the cursor of an event: the cursor's text and what the backlog
replays after it. A cursor names one stream, and a replay stays in it. -/
namespace Zaion.Operation

open Lib

namespace OperationStreamCursor

def parse (cursor : String) : Option OperationStreamCursor := do
  let rest ← "operation:".toList.isPrefixOf? cursor.toList
  let (streamId, sequence) ← rsplitOnce ':' rest
  if streamId = [] then none
  else some ⟨String.ofList streamId, ← parseUnsigned 18446744073709551616 (String.ofList sequence)⟩

def toSseId (cursor : OperationStreamCursor) : String :=
  "operation:" ++ cursor.streamId ++ ":" ++ toString cursor.sequence

/-- A cursor comes back from its text, whatever the stream is called. -/
theorem parse_toSseId {cursor : OperationStreamCursor} (named : cursor.streamId ≠ "")
    (sized : cursor.sequence < 18446744073709551616) : parse cursor.toSseId = some cursor := by
  have text : cursor.toSseId.toList =
      "operation:".toList ++ (cursor.streamId.toList ++ ':' :: (toString cursor.sequence).toList) := by
    simp [toSseId]
  have rest : "operation:".toList.isPrefixOf? cursor.toSseId.toList =
      some (cursor.streamId.toList ++ ':' :: (toString cursor.sequence).toList) := by
    rw [text]
    rfl
  have colonless : ':' ∉ (toString cursor.sequence).toList := by
    intro member
    have digit := isDigit_toString member
    simp at digit
  have full : cursor.streamId.toList ≠ [] := by simpa using named
  simp only [parse,rest,Option.bind_eq_bind,Option.bind_some,rsplitOnce_append colonless,if_neg full,String.ofList_toList,
    parseUnsigned_toString sized]

end OperationStreamCursor

namespace OperationStreamBacklog

def cursorFor (e : OperationEvent) : String := OperationStreamCursor.toSseId ⟨e.streamId, e.sequence⟩

/-- `replay_after` with a cursor as it is written. -/
def replayAfterText (b : OperationStreamBacklog) (cursor : Option String) : List OperationEvent :=
  b.replayAfter (cursor.bind OperationStreamCursor.parse)

def appendAll (capacity : Nat) (events : List OperationEvent) : OperationStreamBacklog :=
  events.foldl append (new capacity)

theorem appendAll_concat (capacity : Nat) (events : List OperationEvent) (e : OperationEvent) :
    appendAll capacity (events ++ [e]) = (appendAll capacity events).append e := List.foldl_concat ..

/-- The last events are there, as many as fit. -/
theorem appendAll_events (capacity : Nat) (events : List OperationEvent) :
    appendAll capacity events = ⟨max capacity 1, events.drop (events.length - max capacity 1)⟩ := by
  induction events using List.reverseRecOn with
  | nil => simp [appendAll,new]
  | append_singleton events e ih =>
    have room : 0 < max capacity 1 := by omega
    have joined : events.drop (events.length - max capacity 1) ++ [e] =
        (events ++ [e]).drop (events.length - max capacity 1) := by
      rw [List.drop_append_of_le_length (Nat.sub_le ..)]
    rw [appendAll_concat,ih,append,joined,List.drop_drop]
    congr 2
    simp only [List.length_drop,List.length_append,List.length_singleton]
    omega

/-- In a stream with rising numbers, the events numbered above one are those behind it. -/
theorem numbered_above {before after : List OperationEvent} {e : OperationEvent}
    (rising : (((before ++ e :: after).filter (fun other => decide (other.streamId = e.streamId))).map
      OperationEvent.sequence).Pairwise (· < ·)) :
    (before ++ e :: after).filter (fun other => decide (other.streamId = e.streamId ∧ e.sequence < other.sequence)) =
      after.filter (fun other => decide (other.streamId = e.streamId)) := by
  rw [List.pairwise_map,List.filter_append,List.filter_cons_of_pos (by simp),List.pairwise_append] at rising
  obtain ⟨-, behind, ahead⟩ := rising
  have none_ : before.filter (fun other => decide (other.streamId = e.streamId ∧ e.sequence < other.sequence)) = [] := by
    rw [List.filter_eq_nil_iff]
    intro other member above
    obtain ⟨same, above⟩ := of_decide_eq_true above
    have below := ahead other (List.mem_filter.mpr ⟨member, by simpa using same⟩) e List.mem_cons_self
    omega
  have all : after.filter (fun other => decide (other.streamId = e.streamId ∧ e.sequence < other.sequence)) =
      after.filter (fun other => decide (other.streamId = e.streamId)) := by
    apply List.filter_congr
    intro other member
    rw [decide_eq_decide]
    constructor
    · exact And.left
    · exact fun same => ⟨same, (List.pairwise_cons.mp behind).1 other
        (List.mem_filter.mpr ⟨member, by simpa using same⟩)⟩
  rw [List.filter_append,none_,List.filter_cons_of_neg (by simp),all,List.nil_append]

/-- After the cursor of a retained event come the retained events of its stream numbered above
it: with rising numbers, those of the stream appended after it. The backlog holds the last
events, as many as it has room for. -/
theorem replay_after_cursor (capacity : Nat) (events : List OperationEvent)
    (sized : ∀ e ∈ events, e.sequence < 18446744073709551616) :
    (appendAll capacity events).events = events.drop (events.length - max capacity 1) ∧
    ∀ i e, (appendAll capacity events).events[i]? = some e → e.streamId ≠ "" →
      (appendAll capacity events).replayAfterText (some (cursorFor e)) =
        (appendAll capacity events).events.filter
          (fun other => decide (other.streamId = e.streamId ∧ e.sequence < other.sequence)) ∧
      ((((appendAll capacity events).events.filter (fun other => decide (other.streamId = e.streamId))).map
          OperationEvent.sequence).Pairwise (· < ·) →
        (appendAll capacity events).replayAfterText (some (cursorFor e)) =
          ((appendAll capacity events).events.drop (i + 1)).filter (fun other => decide (other.streamId = e.streamId))) := by
  rw [appendAll_events]
  refine ⟨rfl, ?_⟩
  intro i e retained named
  generalize kept : events.drop (events.length - max capacity 1) = retainedEvents at *
  have inside : e ∈ events := List.mem_of_mem_drop (kept ▸ List.mem_of_getElem? retained)
  have replayed : replayAfterText ⟨max capacity 1, retainedEvents⟩ (some (cursorFor e)) = retainedEvents.filter
      (fun other => decide (other.streamId = e.streamId ∧ e.sequence < other.sequence)) := by
    rw [replayAfterText,cursorFor,Option.bind_some,OperationStreamCursor.parse_toSseId named (sized e inside)]
    rfl
  refine ⟨replayed, ?_⟩
  intro rising
  obtain ⟨bound, here⟩ := List.getElem?_eq_some_iff.mp retained
  have split : retainedEvents = retainedEvents.take i ++ e :: retainedEvents.drop (i + 1) := by
    rw [← here]
    exact (List.take_append_drop i retainedEvents).symm.trans (by rw [List.drop_eq_getElem_cons bound])
  rw [replayed]
  conv_lhs => rw [split]
  exact numbered_above (split ▸ rising)

def sampleEvent (streamId : String) (sequence : Nat) : OperationEvent :=
  { (OperationStreamBus.new sampleContext 8).numbered (sampleEmission "progress") with
    streamId := streamId, sequence := sequence }

/-- A cursor of the first stream passes over what the second one sent meanwhile. -/
theorem replay_skips_other_stream :
    let backlog := appendAll 8 [sampleEvent "a" 1, sampleEvent "b" 1, sampleEvent "a" 2]
    backlog.events[0]? = some (sampleEvent "a" 1) ∧
    backlog.replayAfterText (some (cursorFor (sampleEvent "a" 1))) = [sampleEvent "a" 2] ∧
    backlog.replayAfterText (some (cursorFor (sampleEvent "a" 1))) ≠ backlog.events.drop 1 := by
  decide

theorem replay_with_colon :
    let backlog := appendAll 0 [sampleEvent "a:1" 1, sampleEvent "a:1" 2]
    backlog.events = [sampleEvent "a:1" 2] ∧
    backlog.replayAfterText (some (cursorFor (sampleEvent "a:1" 2))) = [] := by
  have sized : ∀ e ∈ [sampleEvent "a:1" 1, sampleEvent "a:1" 2], e.sequence < 18446744073709551616 := by decide
  obtain ⟨retained, replays⟩ := replay_after_cursor 0 _ sized
  refine ⟨retained, ?_⟩
  have here : (appendAll 0 [sampleEvent "a:1" 1, sampleEvent "a:1" 2]).events[0]? = some (sampleEvent "a:1" 2) := by
    rw [retained]
    rfl
  rw [(replays 0 _ here (by decide)).1,retained]
  decide

end OperationStreamBacklog

end Zaion.Operation
