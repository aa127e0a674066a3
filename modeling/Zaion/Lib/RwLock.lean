import Zaion.Lib.Steps

/-! Calls that take and release reader-writer locks in a fixed order. A call is its method
and how many of the method's lock steps it has taken; a lock is granted when no call that
holds it excludes the asker. -/
namespace Zaion.Lib

inductive LockMode where
  | read
  | write
  deriving DecidableEq, Repr

inductive LockStep (L : Type) where
  | acquire (lock : L) (mode : LockMode)
  | release (lock : L)
  deriving DecidableEq, Repr

structure LockCall (M : Type) where
  method : M
  taken : Nat
  deriving DecidableEq, Repr

inductive LockAct (M : Type) where
  | start (method : M)
  | advance (call : Nat)
  deriving DecidableEq, Repr

section

variable {L M : Type} [DecidableEq L] (script : M → List (LockStep L))

/-- What the steps taken so far leave held of a lock. -/
def heldAfter (lock : L) (taken : List (LockStep L)) : Option LockMode :=
  taken.foldl (fun held step =>
    match step with
    | .acquire l mode => if l = lock then some mode else held
    | .release l => if l = lock then none else held) none

def LockCall.holds (call : LockCall M) (lock : L) : Option LockMode :=
  heldAfter lock ((script call.method).take call.taken)

/-- The lock a call asks for next. -/
def LockCall.asks (call : LockCall M) : Option (L × LockMode) :=
  match (script call.method)[call.taken]? with
  | some (.acquire lock mode) => some (lock, mode)
  | _ => none

/-- Readers share a lock, a writer has it alone. -/
def compatible : LockMode → Option LockMode → Bool
  | _, none => true
  | .read, some .read => true
  | _, _ => false

def granted (calls : List (LockCall M)) (lock : L) (mode : LockMode) : Bool :=
  calls.all (fun call => compatible mode (call.holds script lock))

/-- The next lock step of one call, refused while the lock is not granted. -/
def lockStep (calls : List (LockCall M)) : LockAct M → Option (List (LockCall M))
  | .start method => some (calls ++ [⟨method, 0⟩])
  | .advance i =>
    match calls[i]? with
    | none => none
    | some call =>
      match (script call.method)[call.taken]? with
      | none => none
      | some (.release _) => some (calls.set i { call with taken := call.taken + 1 })
      | some (.acquire lock mode) =>
        if granted script calls lock mode then some (calls.set i { call with taken := call.taken + 1 }) else none

/-- Some call holds `a` and asks for `b` while another holds `b` and asks for `a`. -/
def CrossWait (a b : L) (calls : List (LockCall M)) : Prop :=
  ∃ first ∈ calls, ∃ second ∈ calls, (first.holds script a).isSome ∧ (first.asks script).map Prod.fst = some b ∧
    (second.holds script b).isSome ∧ (second.asks script).map Prod.fst = some a

variable {script} {calls calls' : List (LockCall M)}

/-- All a step does. -/
theorem lockStep_cases {act : LockAct M} (taken : lockStep script calls act = some calls') :
    (∃ method, act = .start method ∧ calls' = calls ++ [⟨method, 0⟩]) ∨
    ∃ i call, act = .advance i ∧ calls[i]? = some call ∧ call.taken < (script call.method).length ∧
      calls' = calls.set i { call with taken := call.taken + 1 } := by
  cases act with
  | start method => exact .inl ⟨method, rfl, (Option.some.inj taken).symm⟩
  | advance i =>
    simp only [lockStep] at taken
    split at taken
    · cases taken
    · rename_i call here
      have bound (lock : LockStep L) (next : (script call.method)[call.taken]? = some lock) :
          call.taken < (script call.method).length := (List.getElem?_eq_some_iff.mp next).1
      split at taken
      · cases taken
      · rename_i next
        exact .inr ⟨i, call, rfl, here, bound _ next, (Option.some.inj taken).symm⟩
      · rename_i next
        split at taken
        · exact .inr ⟨i, call, rfl, here, bound _ next, (Option.some.inj taken).symm⟩
        · cases taken

/-- A call has taken no more steps than its method has. -/
theorem lockStep_bounded {act : LockAct M} (taken : lockStep script calls act = some calls')
    (bounded : ∀ call ∈ calls, call.taken ≤ (script call.method).length) :
    ∀ call ∈ calls', call.taken ≤ (script call.method).length := by
  intro call member
  rcases lockStep_cases taken with ⟨method, _, rfl⟩ | ⟨i, old, _, here, bound, rfl⟩
  · rcases List.mem_append.mp member with before | last
    · exact bounded call before
    · rw [List.mem_singleton.mp last]
      exact Nat.zero_le _
  · rcases List.mem_or_eq_of_mem_set member with before | rfl
    · exact bounded call before
    · exact bound

end

end Zaion.Lib
