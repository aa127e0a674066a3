import Mathlib.Data.List.Nodup
import Zaion.Lib.Steps
import Zaion.Session.Compressor

/-! The conversation history of the unified runtime. A turn writes it twice, the user message
before the agent runs and the response after it, each time under the lock; any number of turns
are under way at once. -/
namespace Zaion.Unified

open Lib Session

/-- How far an `execute_turn` is. -/
inductive Phase where
  | started
  /-- The user message is in the history and the agent runs. -/
  | asked
  | answered (response : String)
  | succeeded (response : String)
  | failed (error : String)
  deriving DecidableEq, Repr

structure TurnCall where
  userMessage : String
  phase : Phase
  deriving DecidableEq, Repr

structure Runtime where
  history : List Turn
  calls : List TurnCall
  deriving DecidableEq, Repr

inductive Act where
  | start (userMessage : String)
  | pushUser (call : Nat)
  | execute (call : Nat) (outcome : Except String String)
  | pushAssistant (call : Nat)
  deriving DecidableEq, Repr

namespace Runtime

def step (r : Runtime) : Act → Option Runtime
  | .start userMessage => some { r with calls := r.calls ++ [⟨userMessage, .started⟩] }
  | .pushUser i =>
    match r.calls[i]? with
    | some ⟨userMessage, .started⟩ =>
      some ⟨r.history ++ [⟨"user", userMessage⟩], r.calls.set i ⟨userMessage, .asked⟩⟩
    | _ => none
  | .execute i outcome =>
    match r.calls[i]? with
    | some ⟨userMessage, .asked⟩ =>
      match outcome with
      | .ok response => some { r with calls := r.calls.set i ⟨userMessage, .answered response⟩ }
      | .error e => some { r with calls := r.calls.set i ⟨userMessage, .failed e⟩ }
    | _ => none
  | .pushAssistant i =>
    match r.calls[i]? with
    | some ⟨userMessage, .answered response⟩ =>
      some ⟨r.history ++ [⟨"assistant", response⟩], r.calls.set i ⟨userMessage, .succeeded response⟩⟩
    | _ => none

/-- `get_history`. -/
def getHistory (r : Runtime) : List Turn := r.history

end Runtime

def TurnCall.response : TurnCall → Option String
  | ⟨_, .succeeded response⟩ => some response
  | _ => none

/-- The call has written its user message and not its response. -/
def TurnCall.halfway : TurnCall → Bool
  | ⟨_, .asked⟩ | ⟨_, .answered _⟩ => true
  | _ => false

def TurnCall.ended : TurnCall → Bool
  | ⟨_, .succeeded _⟩ | ⟨_, .failed _⟩ => true
  | _ => false

/-- What a call that succeeded adds to the history. -/
def turnsOf (calls : List TurnCall) (i : Nat) : List Turn :=
  match calls[i]? with
  | some ⟨userMessage, .succeeded response⟩ => [⟨"user", userMessage⟩, ⟨"assistant", response⟩]
  | _ => []

/-- The successful calls in some order, each with its message and its response. -/
def Records (history : List Turn) (calls : List TurnCall) : Prop :=
  ∃ order : List Nat, order.Nodup ∧ (∀ i, i ∈ order ↔ ∃ call, calls[i]? = some call ∧ call.response.isSome = true) ∧
    history = order.flatMap (turnsOf calls)

/-- No turn begins while another is halfway, and no agent fails. -/
def Orderly (r : Runtime) : Act → Prop
  | .pushUser _ => ∀ call ∈ r.calls, call.halfway = false
  | .execute _ (.error _) => False
  | _ => True

instance (r : Runtime) : (act : Act) → Decidable (Orderly r act)
  | .start _ => isTrue trivial
  | .pushUser _ => inferInstanceAs (Decidable (∀ call ∈ r.calls, call.halfway = false))
  | .execute _ (.ok _) => isTrue trivial
  | .execute _ (.error _) => isFalse id
  | .pushAssistant _ => isTrue trivial

/-- The call that is halfway, if there is one, has its user message at the end of the history. -/
structure Kept (r : Runtime) (order : List Nat) (turn : Option (Nat × String)) : Prop where
  nodup : order.Nodup
  mem : ∀ i, i ∈ order ↔ ∃ call, r.calls[i]? = some call ∧ call.response.isSome = true
  only : ∀ i call, r.calls[i]? = some call → call.halfway = true → turn = some (i, call.userMessage)
  there : ∀ i message, turn = some (i, message) → ∃ call, r.calls[i]? = some call ∧ call.halfway = true
  history : r.history = order.flatMap (turnsOf r.calls) ++ (turn.map (fun t => Turn.mk "user" t.2)).toList

section

variable {r r' : Runtime} {order : List Nat} {turn : Option (Nat × String)} {i : Nat} {call : TurnCall}

theorem flatMap_set {calls : List TurnCall} (apart : i ∉ order) :
    order.flatMap (turnsOf (calls.set i call)) = order.flatMap (turnsOf calls) := by
  refine List.flatMap_congr fun k member => ?_
  have other : i ≠ k := fun same => apart (same ▸ member)
  unfold turnsOf
  rw [List.getElem?_set_ne other]

/-- A call that has no response yet is in no order. -/
theorem Kept.not_mem (kept : Kept r order turn) (found : r.calls[i]? = some call) (open_ : call.response = none) :
    i ∉ order := by
  intro member
  obtain ⟨other, here, answered⟩ := (kept.mem i).mp member
  rw [found] at here
  cases here
  rw [open_] at answered
  cases answered

/-- A call moves on without a response. -/
theorem Kept.mem_set (kept : Kept r order turn) (found : r.calls[i]? = some call) (open_ : call.response = none)
    {next : TurnCall} (still : next.response = none) (k : Nat) :
    k ∈ order ↔ ∃ c, (r.calls.set i next)[k]? = some c ∧ c.response.isSome = true := by
  by_cases same : k = i
  · subst same
    have inside := (List.getElem?_eq_some_iff.mp found).1
    refine ⟨fun member => absurd member (kept.not_mem found open_), ?_⟩
    rintro ⟨c, here, answered⟩
    rw [List.getElem?_set_self inside] at here
    cases here
    rw [still] at answered
    cases answered
  · rw [List.getElem?_set_ne (Ne.symm same)]
    exact kept.mem k

theorem Kept.start (kept : Kept r order turn) (userMessage : String) :
    Kept { r with calls := r.calls ++ [⟨userMessage, .started⟩] } order turn where
  nodup := kept.nodup
  mem := by
    intro k
    rw [kept.mem k]
    constructor
    · rintro ⟨c, here, answered⟩
      exact ⟨c, by rw [List.getElem?_append_left (List.getElem?_eq_some_iff.mp here).1]; exact here, answered⟩
    · rintro ⟨c, here, answered⟩
      refine ⟨c, ?_, answered⟩
      rw [List.getElem?_append] at here
      split at here
      · exact here
      · rw [List.getElem?_singleton] at here
        split at here
        · cases here
          cases answered
        · cases here
  only := by
    intro k c here
    rw [List.getElem?_append] at here
    split at here
    · exact kept.only k c here
    · rw [List.getElem?_singleton] at here
      split at here
      · cases here
        exact nofun
      · cases here
  there := by
    intro k message opened
    obtain ⟨c, here, halfway⟩ := kept.there k message opened
    exact ⟨c, by rw [List.getElem?_append_left (List.getElem?_eq_some_iff.mp here).1]; exact here, halfway⟩
  history := by
    rw [kept.history]
    congr 1
    refine List.flatMap_congr fun k member => ?_
    obtain ⟨c, here, _⟩ := (kept.mem k).mp member
    unfold turnsOf
    rw [List.getElem?_append_left (List.getElem?_eq_some_iff.mp here).1]

theorem Kept.pushUser (kept : Kept r order turn) {userMessage : String} (found : r.calls[i]? = some ⟨userMessage, .started⟩)
    (free : ∀ call ∈ r.calls, call.halfway = false) :
    Kept ⟨r.history ++ [⟨"user", userMessage⟩], r.calls.set i ⟨userMessage, .asked⟩⟩ order (some (i, userMessage)) where
  nodup := kept.nodup
  mem := kept.mem_set found rfl rfl
  only := by
    intro k c here halfway
    by_cases same : k = i
    · subst same
      rw [List.getElem?_set_self (List.getElem?_eq_some_iff.mp found).1] at here
      cases here
      rfl
    · rw [List.getElem?_set_ne (Ne.symm same)] at here
      rw [free c (List.mem_of_getElem? here)] at halfway
      cases halfway
  there := by
    intro k message opened
    cases opened
    exact ⟨_, List.getElem?_set_self (List.getElem?_eq_some_iff.mp found).1, rfl⟩
  history := by
    have none_ : turn = none := by
      cases opened : turn with
      | none => rfl
      | some t =>
        obtain ⟨c, here, halfway⟩ := kept.there t.1 t.2 opened
        rw [free c (List.mem_of_getElem? here)] at halfway
        cases halfway
    dsimp only
    rw [kept.history,none_,flatMap_set (kept.not_mem found rfl)]
    simp

theorem Kept.answer (kept : Kept r order turn) {userMessage : String} (found : r.calls[i]? = some ⟨userMessage, .asked⟩)
    (response : String) : Kept { r with calls := r.calls.set i ⟨userMessage, .answered response⟩ } order turn where
  nodup := kept.nodup
  mem := kept.mem_set found rfl rfl
  only := by
    intro k c here halfway
    by_cases same : k = i
    · subst same
      rw [List.getElem?_set_self (List.getElem?_eq_some_iff.mp found).1] at here
      cases here
      have mine := kept.only k _ found rfl
      exact mine
    · rw [List.getElem?_set_ne (Ne.symm same)] at here
      exact kept.only k c here halfway
  there := by
    intro k message opened
    by_cases same : k = i
    · subst same
      exact ⟨_, List.getElem?_set_self (List.getElem?_eq_some_iff.mp found).1, rfl⟩
    · rw [List.getElem?_set_ne (Ne.symm same)]
      exact kept.there k message opened
  history := by
    rw [kept.history,flatMap_set (kept.not_mem found rfl)]

/-- The response comes right after the message that is last. -/
theorem Kept.pushAssistant (kept : Kept r order turn) {userMessage response : String}
    (found : r.calls[i]? = some ⟨userMessage, .answered response⟩) :
    Kept ⟨r.history ++ [⟨"assistant", response⟩], r.calls.set i ⟨userMessage, .succeeded response⟩⟩ (order ++ [i]) none where
  nodup := by
    rw [← List.concat_eq_append]
    exact List.Nodup.concat (kept.not_mem found rfl) kept.nodup
  mem := by
    intro k
    rw [List.mem_append,List.mem_singleton]
    by_cases same : k = i
    · subst same
      exact ⟨fun _ => ⟨_, List.getElem?_set_self (List.getElem?_eq_some_iff.mp found).1, rfl⟩, fun _ => .inr rfl⟩
    · rw [List.getElem?_set_ne (Ne.symm same),← kept.mem k]
      exact ⟨fun either => either.resolve_right same, .inl⟩
  only := by
    intro k c here halfway
    by_cases same : k = i
    · subst same
      rw [List.getElem?_set_self (List.getElem?_eq_some_iff.mp found).1] at here
      cases here
      cases halfway
    · rw [List.getElem?_set_ne (Ne.symm same)] at here
      have mine := kept.only i _ found rfl
      rw [kept.only k c here halfway] at mine
      cases mine
      exact absurd rfl same
  there := nofun
  history := by
    have mine := kept.only i _ found rfl
    have own : turnsOf (r.calls.set i ⟨userMessage, .succeeded response⟩) i =
        [⟨"user", userMessage⟩, ⟨"assistant", response⟩] := by
      unfold turnsOf
      rw [List.getElem?_set_self (List.getElem?_eq_some_iff.mp found).1]
    dsimp only
    rw [kept.history,mine,List.flatMap_append,flatMap_set (kept.not_mem found rfl),List.flatMap_singleton,own]
    simp

theorem Kept.step (kept : Kept r order turn) {act : Act} (orderly : Orderly r act) (taken : r.step act = some r') :
    ∃ order' turn', Kept r' order' turn' := by
  cases act with
  | start userMessage =>
    cases taken
    exact ⟨_, _, kept.start userMessage⟩
  | pushUser i =>
    rw [Runtime.step] at taken
    split at taken
    · rename_i found
      cases taken
      exact ⟨_, _, kept.pushUser found orderly⟩
    · cases taken
  | execute i outcome =>
    rw [Runtime.step] at taken
    split at taken
    · rename_i found
      cases outcome with
      | ok response =>
        cases taken
        exact ⟨_, _, kept.answer found response⟩
      | error e => exact orderly.elim
    · cases taken
  | pushAssistant i =>
    rw [Runtime.step] at taken
    split at taken
    · rename_i found
      cases taken
      exact ⟨_, _, kept.pushAssistant found⟩
    · cases taken

def Recorded (r : Runtime) : Prop := ∃ order turn, Kept r order turn

theorem not_halfway_of_ended (ended : call.ended = true) : call.halfway = false := by
  obtain ⟨message, phase⟩ := call
  cases phase with
  | started => rfl
  | asked => cases ended
  | answered response => cases ended
  | succeeded response => rfl
  | failed e => rfl

/-- In every run of orderly steps, whenever no call is in progress the history is that of the
successful calls. -/
theorem history_records_turns {acts : List Act} (orderly : Meets Runtime.step ⟨[], []⟩ Orderly acts) :
    ∀ r, Visits Runtime.step ⟨[], []⟩ acts r → (∀ call ∈ r.calls, call.ended = true) → Records r.getHistory r.calls := by
  intro r visited quiet
  have empty : Kept ⟨[], []⟩ [] none := ⟨List.nodup_nil, by simp, by simp, nofun, rfl⟩
  have first : Recorded ⟨[], []⟩ := ⟨[], none, empty⟩
  obtain ⟨order, turn, kept⟩ := orderly.visited first
    (fun _ _ _ ⟨_, _, kept⟩ here taken => kept.step here taken) r visited
  refine ⟨order, kept.nodup, kept.mem, ?_⟩
  have none_ : turn = none := by
    cases opened : turn with
    | none => rfl
    | some t =>
      obtain ⟨c, here, halfway⟩ := kept.there t.1 t.2 opened
      rw [not_halfway_of_ended (quiet c (List.mem_of_getElem? here))] at halfway
      cases halfway
  rw [Runtime.getHistory,kept.history,none_]
  simp

end

/-- Two turns, the second asked after the first was answered. -/
def twoTurns : List Act :=
  [.start "a", .start "b", .pushUser 1, .execute 1 (.ok "B"), .pushAssistant 1, .pushUser 0, .execute 0 (.ok "A"), .pushAssistant 0]

theorem twoTurns_recorded : ∃ r, steps Runtime.step ⟨[], []⟩ twoTurns = some r ∧
    r.getHistory = [⟨"user", "b"⟩, ⟨"assistant", "B"⟩, ⟨"user", "a"⟩, ⟨"assistant", "A"⟩] ∧ Records r.getHistory r.calls := by
  have orderly : Meets Runtime.step ⟨[], []⟩ Orderly twoTurns := meets_of_check (by decide)
  have ended : steps Runtime.step ⟨[], []⟩ twoTurns = some ⟨[⟨"user", "b"⟩, ⟨"assistant", "B"⟩, ⟨"user", "a"⟩, ⟨"assistant", "A"⟩],
      [⟨"a", .succeeded "A"⟩, ⟨"b", .succeeded "B"⟩]⟩ := by decide
  exact ⟨_, ended, rfl, history_records_turns orderly _ (visits_last ended) (by decide)⟩

/-- A recorded history begins with a message and its response. -/
theorem Records.first {history : List Turn} {calls : List TurnCall} (records : Records history calls) :
    history = [] ∨ ∃ message response rest, history = ⟨"user", message⟩ :: ⟨"assistant", response⟩ :: rest := by
  obtain ⟨order, _, mem, rfl⟩ := records
  cases order with
  | nil => exact .inl rfl
  | cons i rest =>
    obtain ⟨⟨message, phase⟩, found, answered⟩ := (mem i).mp List.mem_cons_self
    cases phase with
    | succeeded response =>
      refine .inr ⟨message, response, rest.flatMap (turnsOf calls), ?_⟩
      rw [List.flatMap_cons,turnsOf,found]
      rfl
    | started => cases answered
    | asked => cases answered
    | answered response => cases answered
    | failed e => cases answered

/-- An agent that fails leaves its user message behind, and two turns at once are not recorded one by one. -/
theorem history_not_records : ∃ r s,
    steps Runtime.step ⟨[], []⟩ [.start "a", .pushUser 0, .execute 0 (.error "model unavailable")] = some r ∧
      (∀ call ∈ r.calls, call.ended = true) ∧ ¬ Records r.getHistory r.calls ∧
    steps Runtime.step ⟨[], []⟩ [.start "a", .start "b", .pushUser 0, .pushUser 1, .execute 0 (.ok "A"),
      .execute 1 (.ok "B"), .pushAssistant 0, .pushAssistant 1] = some s ∧
      (∀ call ∈ s.calls, call.ended = true) ∧ ¬ Records s.getHistory s.calls := by
  refine ⟨⟨[⟨"user", "a"⟩], [⟨"a", .failed "model unavailable"⟩]⟩, ⟨[⟨"user", "a"⟩, ⟨"user", "b"⟩, ⟨"assistant", "A"⟩,
    ⟨"assistant", "B"⟩], [⟨"a", .succeeded "A"⟩, ⟨"b", .succeeded "B"⟩]⟩, by decide, by decide, ?_, by decide, by decide, ?_⟩
  · intro records
    rcases records.first with nothing | ⟨message, response, rest, same⟩
    · cases nothing
    · cases same
  · intro records
    rcases records.first with nothing | ⟨message, response, rest, same⟩
    · cases nothing
    · have second := congrArg (fun l => (l[1]?).map Turn.role) same
      simp [Runtime.getHistory] at second

end Zaion.Unified
