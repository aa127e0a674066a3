import Zaion.Lib.RwLock
import Mathlib.Tactic.IntervalCases

/-! `MemoryManager` seen through its two locks. Each method is the order in which it takes
them and lets them go: guards fall at the end of the method, the last taken first. -/
namespace Zaion.Memory

open Lib

inductive ManagerLock where
  | providers
  | toolToProvider
  deriving DecidableEq, Repr

inductive ManagerMethod where
  | addProvider
  | prefetchAll
  | syncAll
  | getAllToolSchemas
  | handleToolCall
  deriving DecidableEq, Repr

/-- The providers read, nothing else. -/
def readsProviders : List (LockStep ManagerLock) := [.acquire .providers .read, .release .providers]

def ManagerMethod.script : ManagerMethod → List (LockStep ManagerLock)
  | .addProvider => [.acquire .providers .write, .acquire .toolToProvider .write, .release .toolToProvider,
      .release .providers]
  | .prefetchAll => readsProviders
  | .syncAll => readsProviders
  | .getAllToolSchemas => readsProviders
  | .handleToolCall => [.acquire .toolToProvider .read, .acquire .providers .read, .release .providers,
      .release .toolToProvider]

abbrev Calls := List (LockCall ManagerMethod)

def managerStep : Calls → LockAct ManagerMethod → Option Calls := lockStep ManagerMethod.script

/-- The state in which two calls wait for each other. -/
def Deadlocked (calls : Calls) : Prop := CrossWait ManagerMethod.script .providers .toolToProvider calls

/-- A call of the method has its first lock and asks for its second. -/
def Halfway (method : ManagerMethod) (calls : Calls) : Prop := ⟨method, 1⟩ ∈ calls

/-- Neither of `add_provider` and `handle_tool_call` takes its first lock while a call of the
other is halfway. -/
def OneAtATime (calls : Calls) : LockAct ManagerMethod → Prop
  | .start _ => True
  | .advance i => (calls[i]? = some ⟨.addProvider, 0⟩ → ¬ Halfway .handleToolCall calls) ∧
      (calls[i]? = some ⟨.handleToolCall, 0⟩ → ¬ Halfway .addProvider calls)

instance (method : ManagerMethod) (calls : Calls) : Decidable (Halfway method calls) :=
  inferInstanceAs (Decidable (_ ∈ calls))

instance (calls : Calls) (act : LockAct ManagerMethod) : Decidable (OneAtATime calls act) :=
  match act with
  | .start _ => inferInstanceAs (Decidable True)
  | .advance _ => inferInstanceAs (Decidable (_ ∧ _))

section

variable {calls calls' : Calls} {call : LockCall ManagerMethod} {act : LockAct ManagerMethod}

/-- No call is past the end of its method. -/
def Bounded (calls : Calls) : Prop := ∀ call ∈ calls, call.taken ≤ call.method.script.length

/-- Only a registration has the providers and asks for the tool map. -/
theorem registering_iff (bound : call.taken ≤ call.method.script.length) :
    ((call.holds ManagerMethod.script .providers).isSome ∧
      (call.asks ManagerMethod.script).map Prod.fst = some ManagerLock.toolToProvider) ↔ call = ⟨.addProvider, 1⟩ := by
  obtain ⟨method, taken⟩ := call
  cases method <;> simp only [ManagerMethod.script,readsProviders,List.length_cons,List.length_nil] at bound <;>
    interval_cases taken <;> decide

/-- Only a tool call has the tool map and asks for the providers. -/
theorem calling_iff (bound : call.taken ≤ call.method.script.length) :
    ((call.holds ManagerMethod.script .toolToProvider).isSome ∧
      (call.asks ManagerMethod.script).map Prod.fst = some ManagerLock.providers) ↔ call = ⟨.handleToolCall, 1⟩ := by
  obtain ⟨method, taken⟩ := call
  cases method <;> simp only [ManagerMethod.script,readsProviders,List.length_cons,List.length_nil] at bound <;>
    interval_cases taken <;> decide

theorem deadlocked_iff (bounded : Bounded calls) :
    Deadlocked calls ↔ Halfway .addProvider calls ∧ Halfway .handleToolCall calls := by
  constructor
  · rintro ⟨first, inFirst, second, inSecond, holds, asks, holds', asks'⟩
    obtain rfl := (registering_iff (bounded first inFirst)).mp ⟨holds, asks⟩
    obtain rfl := (calling_iff (bounded second inSecond)).mp ⟨holds', asks'⟩
    exact ⟨inFirst, inSecond⟩
  · rintro ⟨registers, calls_⟩
    obtain ⟨holds, asks⟩ := (registering_iff (bounded _ registers)).mpr rfl
    obtain ⟨holds', asks'⟩ := (calling_iff (bounded _ calls_)).mpr rfl
    exact ⟨_, registers, _, calls_, holds, asks, holds', asks'⟩

theorem halfway_start (method started : ManagerMethod) :
    Halfway method (calls ++ [⟨started, 0⟩]) ↔ Halfway method calls := by
  simp [Halfway]

/-- A call that takes its first lock is then halfway. -/
theorem halfway_set {method : ManagerMethod} {i : Nat} (here : calls[i]? = some ⟨method, 0⟩) :
    Halfway method (calls.set i ⟨method, 1⟩) := by
  obtain ⟨bound, _⟩ := List.getElem?_eq_some_iff.mp here
  exact List.mem_iff_getElem?.mpr ⟨i, by rw [List.getElem?_set_self bound]⟩

/-- The others stay where they are. -/
theorem halfway_set_of_ne {method : ManagerMethod} {i : Nat} (here : calls[i]? = some call) (other : call.method ≠ method)
    (halfway : Halfway method calls) (next : LockCall ManagerMethod) : Halfway method (calls.set i next) := by
  obtain ⟨j, same⟩ := List.mem_iff_getElem?.mp halfway
  have apart : i ≠ j := by
    rintro rfl
    rw [here] at same
    exact other (Option.some.inj same ▸ rfl)
  exact List.mem_iff_getElem?.mpr ⟨j, by rw [List.getElem?_set_ne apart,same]⟩

theorem halfway_of_set {method : ManagerMethod} {i : Nat} (here : calls[i]? = some call)
    (halfway : Halfway method (calls.set i { call with taken := call.taken + 1 })) :
    Halfway method calls ∨ calls[i]? = some ⟨method, 0⟩ := by
  rcases List.mem_or_eq_of_mem_set halfway with before | new
  · exact .inl before
  · obtain ⟨rfl, one⟩ := LockCall.mk.inj new
    have zero : call.taken = 0 := by omega
    exact .inr (by rw [here,← zero])

/-- A step deadlocks exactly when it breaks the rule. -/
theorem step_deadlocks_iff (bounded : Bounded calls) (free : ¬ Deadlocked calls) (taken : managerStep calls act = some calls') :
    ¬ Deadlocked calls' ↔ OneAtATime calls act := by
  rw [deadlocked_iff (lockStep_bounded taken bounded)]
  rw [deadlocked_iff bounded] at free
  rcases lockStep_cases taken with ⟨method, rfl, rfl⟩ | ⟨i, call, rfl, here, _, rfl⟩
  · rw [halfway_start,halfway_start]
    exact ⟨fun _ => trivial, fun _ => free⟩
  constructor
  · intro fine
    constructor
    · intro first calling
      obtain rfl := Option.some.inj (here.symm.trans first)
      exact fine ⟨halfway_set here, halfway_set_of_ne here (by decide) calling _⟩
    · intro first registering
      obtain rfl := Option.some.inj (here.symm.trans first)
      exact fine ⟨halfway_set_of_ne here (by decide) registering _, halfway_set here⟩
  · rintro ⟨registration, toolCall⟩ ⟨registering, calling⟩
    rcases halfway_of_set here registering with registered | first
    · rcases halfway_of_set here calling with called | second
      · exact free ⟨registered, called⟩
      · exact toolCall second registered
    · rcases halfway_of_set here calling with called | second
      · exact registration first called
      · rw [first] at second
        cases Option.some.inj second

end

/-- Any number of calls, in any interleaving: no two of them wait for each other in any state
of the run exactly when no registration and no tool call takes its first lock while a call
of the other kind is halfway. -/
theorem no_deadlock_iff {acts : List (LockAct ManagerMethod)} {calls : Calls}
    (run : steps managerStep [] acts = some calls) :
    (∀ visited, Visits managerStep [] acts visited → ¬ Deadlocked visited) ↔ Meets managerStep [] OneAtATime acts := by
  have first : Bounded [] := List.forall_mem_nil _
  refine visits_good_iff run first ?_ ?_ ?_
  · rintro ⟨first, member, _⟩
    cases member
  · intro s a s' bounded taken
    exact lockStep_bounded taken bounded
  · intro s a s' bounded free taken
    exact step_deadlocks_iff bounded free taken

/-- A registration and a tool call, each with its first lock. -/
def crossing : List (LockAct ManagerMethod) := [.start .addProvider, .start .handleToolCall, .advance 0, .advance 1]

theorem crossing_deadlocks : ∃ calls, steps managerStep [] crossing = some calls ∧ Deadlocked calls := by
  refine ⟨[⟨.addProvider, 1⟩, ⟨.handleToolCall, 1⟩], rfl, ?_⟩
  exact ⟨_, .head _, _, .tail _ (.head _), rfl, rfl, rfl, rfl⟩

/-- The same two calls, one after the other. -/
def inTurn : List (LockAct ManagerMethod) := [.start .addProvider, .start .handleToolCall, .advance 0, .advance 0,
  .advance 0, .advance 0, .advance 1, .advance 1, .advance 1, .advance 1]

theorem inTurn_no_deadlock : steps managerStep [] inTurn = some [⟨.addProvider, 4⟩, ⟨.handleToolCall, 4⟩] ∧
    ¬ Deadlocked [⟨.addProvider, 4⟩, ⟨.handleToolCall, 4⟩] := by
  have run : steps managerStep [] inTurn = some [⟨.addProvider, 4⟩, ⟨.handleToolCall, 4⟩] := rfl
  have oneByOne : Meets managerStep [] OneAtATime inTurn := meets_of_check (by decide)
  exact ⟨run, (no_deadlock_iff run).mpr oneByOne _ (visits_last run)⟩

end Zaion.Memory
