import Mathlib.Data.List.Basic

/-! Traces that only grow, and properties that read each event against the events
before it. -/
namespace Zaion.Lib

variable {α β : Type} {P Q : List α → α → Prop} {log new : List α}

/-- Every event of the log satisfies `P` together with the events before it. -/
def Justified (P : List α → α → Prop) (log : List α) : Prop :=
  ∀ before event after, log = before ++ event :: after → P before event

namespace Justified

theorem nil : Justified P [] := by
  intro before event after split
  cases before <;> cases split

theorem append (old : Justified P log)
    (more : ∀ before event after, new = before ++ event :: after → P (log ++ before) event) :
    Justified P (log ++ new) := by
  intro before event after split
  rcases List.append_eq_append_iff.mp split with ⟨rest, rfl, tail⟩ | ⟨rest, rfl, tail⟩
  · exact more rest event after tail
  · cases rest with
    | nil =>
      have atEnd := more [] event after tail.symm
      rwa [List.append_nil,List.append_nil] at atEnd
    | cons first rest =>
      cases tail
      exact old before event rest rfl

theorem left (justified : Justified P (log ++ new)) : Justified P log := by
  intro before event after split
  exact justified before event (after ++ new) (by rw [split,List.append_assoc,List.cons_append])

theorem snoc {event : α} (old : Justified P log) (last : P log event) : Justified P (log ++ [event]) := by
  apply old.append
  intro before event' after split
  cases before with
  | nil =>
    cases split
    rwa [List.append_nil]
  | cons head tail => cases tail <;> cases split

/-- The events before an event of the log, and what it says about them. -/
theorem of_mem {event : α} (justified : Justified P log) (member : event ∈ log) :
    ∃ before after, log = before ++ event :: after ∧ P before event := by
  obtain ⟨before, after, split⟩ := List.append_of_mem member
  exact ⟨before, after, split, justified before event after split⟩

end Justified

end Zaion.Lib
