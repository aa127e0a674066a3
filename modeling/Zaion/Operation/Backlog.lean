import Zaion.Operation.Stream

/-! The shared operation backlog: one mutex over the recent events and their generation, a file
of persisted events beside it, and calls that append, take a snapshot or wait for events after a
cursor. Every step of a call between two uses of the mutex is a step of its own, and time passes
between any two steps. A wait whose deadline falls before it looks at the clock under the mutex
takes its last snapshot without giving the mutex back. -/
namespace Zaion.Operation

open Lib

structure OperationStreamCursor where
  streamId : String
  sequence : Nat
  deriving DecidableEq, Repr

structure OperationStreamBacklog where
  capacity : Nat
  events : List OperationEvent
  deriving DecidableEq

namespace OperationStreamBacklog

def new (capacity : Nat) : OperationStreamBacklog := ⟨max capacity 1, []⟩

def append (b : OperationStreamBacklog) (event : OperationEvent) : OperationStreamBacklog :=
  let events := b.events ++ [event]
  { b with events := events.drop (events.length - b.capacity) }

/-- `after` is the cursor as parsed; one that does not parse counts as none. -/
def replayAfter (b : OperationStreamBacklog) : Option OperationStreamCursor → List OperationEvent
  | none => b.events
  | some cursor => b.events.filter (fun e => decide (e.streamId = cursor.streamId ∧ cursor.sequence < e.sequence))

end OperationStreamBacklog

def backlogCapacity : Nat := 512

def operationEventKey (e : OperationEvent) : String × String × Nat := (e.streamId, e.turnId, e.sequence)

/-- Events whose key was not seen yet, behind those that are there. -/
def mergeNew (b : OperationStreamBacklog) (seen : List (String × String × Nat)) : List OperationEvent → OperationStreamBacklog
  | [] => b
  | e :: rest =>
    if operationEventKey e ∈ seen then mergeNew b seen rest
    else mergeNew (b.append e) (operationEventKey e :: seen) rest

def persistedOperationBacklog (file : List OperationEvent) : OperationStreamBacklog := mergeNew (.new backlogCapacity) [] file

/-- The snapshot from the file as it was read and the events in memory. -/
def snapshotOf (file memory : List OperationEvent) : OperationStreamBacklog :=
  let persisted := persistedOperationBacklog file
  mergeNew persisted (persisted.events.map operationEventKey) memory

/-- Where a `shared_operation_backlog` is; `holding` with the mutex. -/
inductive Snap where
  | reading
  | asking (file : List OperationEvent)
  | holding (file : List OperationEvent)
  deriving DecidableEq

inductive AppendAt where
  | asking
  | holding
  | persisting (left : List OperationEvent)
  | returned
  deriving DecidableEq

/-- Where a wait is. -/
inductive WaitAt where
  /-- The read at the beginning of a round. -/
  | first (snap : Snap)
  | locking
  /-- With the mutex: the events in memory are looked at again. -/
  | checking
  /-- With the mutex: nothing was there, the clock is looked at next. -/
  | timing (generation : Nat)
  /-- The deadline is over: the last read, the mutex still held. -/
  | lastHeld (snap : Snap)
  | entering (generation remaining : Nat)
  /-- With the mutex, inside the wait on the condition variable. -/
  | rechecking (generation limit : Nat)
  /-- On the condition variable, without the mutex. -/
  | waiting (generation limit : Nat)
  | woken (generation limit : Nat)
  | dropping (timedOut : Bool)
  /-- The last read after the wait timed out. -/
  | last (snap : Snap)
  | returned (replay : List OperationEvent)
  deriving DecidableEq

/-- The events of an append are those already bound to the ledger. -/
inductive Call where
  | append (events : List OperationEvent) (at_ : AppendAt)
  | snapshot (snap : Snap)
  | taken (backlog : OperationStreamBacklog)
  | wait (after : Option OperationStreamCursor) (timeout deadline : Nat) (at_ : WaitAt)
  deriving DecidableEq

def Snap.asks : Snap → Bool
  | .asking _ => true
  | _ => false

def Snap.holds : Snap → Bool
  | .holding _ => true
  | _ => false

/-- The next thing the call does is to lock the mutex. -/
def Call.asks : Call → Bool
  | .append _ .asking => true
  | .snapshot snap => snap.asks
  | .wait _ _ _ (.first snap) | .wait _ _ _ (.lastHeld snap) | .wait _ _ _ (.last snap) => snap.asks
  | .wait _ _ _ .locking | .wait _ _ _ (.woken _ _) => true
  | _ => false

def Call.holds : Call → Bool
  | .append _ .holding => true
  | .snapshot snap => snap.holds
  | .wait _ _ _ (.first snap) | .wait _ _ _ (.last snap) => snap.holds
  | .wait _ _ _ .checking | .wait _ _ _ (.timing _) | .wait _ _ _ (.lastHeld _) | .wait _ _ _ (.entering _ _)
  | .wait _ _ _ (.rechecking _ _) | .wait _ _ _ (.dropping _) => true
  | _ => false

def Call.returned : Call → Bool
  | .append _ .returned | .taken _ | .wait _ _ _ (.returned _) => true
  | _ => false

structure World where
  now : Nat
  backlog : OperationStreamBacklog
  generation : Nat
  file : List OperationEvent
  calls : List Call
  deriving DecidableEq

inductive Act where
  | tick (time : Nat)
  | append (events : List OperationEvent)
  | snapshot
  | wait (after : Option OperationStreamCursor) (timeout : Nat)
  | advance (call : Nat)
  /-- The file takes no more of what an append persists. -/
  | failWrite (call : Nat)
  deriving DecidableEq

namespace World

/-- Nobody holds the mutex. -/
def free (w : World) : Bool := w.calls.all (fun call => !call.holds)

/-- The next step of a snapshot: on its way, or done. -/
def snapNext (w : World) : Snap → Option (Snap ⊕ OperationStreamBacklog)
  | .reading => some (.inl (.asking w.file))
  | .asking file => if w.free then some (.inl (.holding file)) else none
  | .holding file => some (.inr (snapshotOf file (w.backlog.replayAfter none)))

/-- The end of a wait with a last snapshot. -/
def lastNext (w : World) (after : Option OperationStreamCursor) (back : Snap → WaitAt) (snap : Snap) : Option WaitAt :=
  (w.snapNext snap).map (fun
    | .inl snap => back snap
    | .inr backlog => .returned (backlog.replayAfter after))

def waitNext (w : World) (after : Option OperationStreamCursor) (timeout deadline : Nat) : WaitAt → Option WaitAt
  | .first snap => (w.snapNext snap).map (fun
      | .inl snap => .first snap
      | .inr backlog =>
        if backlog.replayAfter after ≠ [] ∨ timeout = 0 then .returned (backlog.replayAfter after) else .locking)
  | .locking => if w.free then some .checking else none
  | .checking =>
    if w.backlog.replayAfter after ≠ [] then some (.returned (w.backlog.replayAfter after)) else some (.timing w.generation)
  | .timing generation =>
    if w.now < deadline then some (.entering generation (deadline - w.now)) else some (.lastHeld .reading)
  | .lastHeld snap => w.lastNext after .lastHeld snap
  | .entering generation remaining => some (.rechecking generation (w.now + remaining))
  | .rechecking generation limit =>
    if w.generation ≠ generation then some (.dropping false)
    else if limit < w.now then some (.dropping true) else some (.waiting generation limit)
  -- notified, timed out or woken for no reason at all
  | .waiting generation limit => some (.woken generation limit)
  | .woken generation limit => if w.free then some (.rechecking generation limit) else none
  | .dropping true => some (.last .reading)
  | .dropping false => some (.first .reading)
  | .last snap => w.lastNext after .last snap
  | .returned _ => none

/-- What a call does next, and what it leaves of the backlog. -/
def next (w : World) : Call → Option (World × Call)
  | .append events .asking =>
    if events = [] then some (w, .append events .returned)
    else if w.free then some (w, .append events .holding) else none
  | .append events .holding =>
    some ({ w with
      backlog := events.foldl OperationStreamBacklog.append w.backlog
      generation := min (w.generation + 1) (2 ^ 64 - 1) }, .append events (.persisting events))
  | .append events (.persisting []) => some (w, .append events .returned)
  | .append events (.persisting (e :: left)) => some ({ w with file := w.file ++ [e] }, .append events (.persisting left))
  | .append _ .returned => none
  | .snapshot snap => (w.snapNext snap).map (fun
      | .inl snap => (w, .snapshot snap)
      | .inr backlog => (w, .taken backlog))
  | .taken _ => none
  | .wait after timeout deadline at_ =>
    (w.waitNext after timeout deadline at_).map (fun at_ => (w, .wait after timeout deadline at_))

/-- `instants` is the last instant the clock can name. -/
def step (instants : Nat) (w : World) : Act → Option World
  | .tick time => some { w with now := w.now + time }
  | .append events => some { w with calls := w.calls ++ [.append events .asking] }
  | .snapshot => some { w with calls := w.calls ++ [.snapshot .reading] }
  | .wait after timeout =>
    let deadline := if w.now + timeout ≤ instants then w.now + timeout else w.now
    some { w with calls := w.calls ++ [.wait after timeout deadline (.first .reading)] }
  | .advance i =>
    match w.calls[i]? with
    | some call => (w.next call).map (fun (w', call') => { w' with calls := w.calls.set i call' })
    | none => none
  | .failWrite i =>
    match w.calls[i]? with
    | some (.append events (.persisting _)) => some { w with calls := w.calls.set i (.append events .returned) }
    | _ => none

def start (now : Nat) (file : List OperationEvent) : World := ⟨now, .new backlogCapacity, 0, file, []⟩

end World

/-- How many steps of its own a call takes at most before it gives the mutex back. -/
def Call.hold : Call → Nat
  | .append _ .holding => 1
  | .snapshot (.holding _) => 1
  | .wait _ _ _ at_ => match at_ with
    | .first (.holding _) | .last (.holding _) | .dropping _ => 1
    | .rechecking _ _ => 2
    | .entering _ _ => 3
    | .timing _ => 4
    | .checking => 5
    | _ => 0
  | _ => 0

/-- How many steps of its own a wait takes at most once its deadline is over. -/
def WaitAt.rank : WaitAt → Nat
  | .returned _ => 0
  | .last (.holding _) | .lastHeld (.holding _) => 1
  | .last (.asking _) | .lastHeld (.asking _) => 2
  | .last .reading | .lastHeld .reading => 3
  | .dropping true | .timing _ => 4
  | .checking => 5
  | .locking => 6
  | .first (.holding _) => 7
  | .first (.asking _) => 8
  | .first .reading => 9
  | .dropping false => 10
  | .rechecking _ _ => 11
  | .woken _ _ => 12
  | .waiting _ _ => 13
  | .entering _ _ => 14

/-- The deadline has been reached and, on the condition variable, the limit of that wait is over. -/
def WaitAt.Overdue (now deadline : Nat) : WaitAt → Prop
  | .rechecking _ limit | .woken _ limit | .waiting _ limit => deadline ≤ now ∧ limit < now
  | .entering _ _ => False
  | _ => deadline ≤ now

/-- The mutex is not held over a last snapshot. -/
def Call.Released : Call → Prop
  | .wait _ _ _ at_ => ∀ snap, at_ ≠ .lastHeld snap
  | _ => True

namespace World

variable {instants : Nat} {w w' : World} {call call' : Call} {i : Nat}

/-- A wait that looks at the clock under the mutex does so before its deadline. -/
def inTime (w : World) : Act → Bool
  | .advance i =>
    match w.calls[i]? with
    | some (.wait _ _ deadline (.timing _)) => decide (w.now < deadline)
    | _ => true
  | _ => true

def InTime (w : World) (act : Act) : Prop := w.inTime act = true

instance (w : World) (act : Act) : Decidable (w.InTime act) := inferInstanceAs (Decidable (_ = true))

theorem InTime.timing {after timeout deadline generation} (timely : w.InTime (.advance i))
    (found : w.calls[i]? = some (.wait after timeout deadline (.timing generation))) : w.now < deadline := by
  simpa [InTime,inTime,found] using timely

/-- What one step does to the calls: a new one, none, or one of them goes on. -/
inductive Moves (w w' : World) : Act → Prop where
  | same {act} (calls : w'.calls = w.calls) (other : ∀ i, act ≠ .advance i) : Moves w w' act
  | fresh {act} (call : Call) (calls : w'.calls = w.calls ++ [call]) (released : call.Released)
    (other : ∀ i, act ≠ .advance i) : Moves w w' act
  | goes (i : Nat) (call call' : Call) (found : w.calls[i]? = some call) (next : ∃ rest, w.next call = some (rest, call'))
    (calls : w'.calls = w.calls.set i call') : Moves w w' (.advance i)
  | fails (i : Nat) (events left : List OperationEvent) (found : w.calls[i]? = some (.append events (.persisting left)))
    (calls : w'.calls = w.calls.set i (.append events .returned)) : Moves w w' (.failWrite i)

theorem next_wait {after timeout deadline at_} {rest : World}
    (went : w.next (.wait after timeout deadline at_) = some (rest, call')) :
    rest = w ∧ ∃ at', w.waitNext after timeout deadline at_ = some at' ∧ call' = .wait after timeout deadline at' := by
  obtain ⟨at', moved, same⟩ := Option.map_eq_some_iff.mp went
  obtain ⟨rfl, rfl⟩ := Prod.mk.inj same
  exact ⟨rfl, at', moved, rfl⟩

theorem next_snapshot {snap : Snap} {rest : World} (went : w.next (.snapshot snap) = some (rest, call')) :
    rest = w ∧ ((∃ snap', w.snapNext snap = some (.inl snap') ∧ call' = .snapshot snap') ∨
      ∃ backlog, w.snapNext snap = some (.inr backlog) ∧ call' = .taken backlog) := by
  obtain ⟨snap' | backlog, moved, same⟩ := Option.map_eq_some_iff.mp went
  · obtain ⟨rfl, rfl⟩ := Prod.mk.inj same
    exact ⟨rfl, .inl ⟨snap', moved, rfl⟩⟩
  · obtain ⟨rfl, rfl⟩ := Prod.mk.inj same
    exact ⟨rfl, .inr ⟨backlog, moved, rfl⟩⟩

theorem next_append {events : List OperationEvent} {at_ : AppendAt} {rest : World}
    (went : w.next (.append events at_) = some (rest, call')) :
    rest.now = w.now ∧ ∃ at', call' = .append events at' ∧ (at_ = .holding → at' = .persisting events) := by
  unfold next at went
  split at went
  all_goals grind

theorem next_now {rest : World} (went : w.next call = some (rest, call')) : rest.now = w.now := by
  cases call with
  | append events at_ => exact (next_append went).1
  | snapshot snap => exact congrArg World.now (next_snapshot went).1
  | taken backlog => cases went
  | wait after timeout deadline at_ => exact congrArg World.now (next_wait went).1

theorem step_moves {act : Act} (taken : w.step instants act = some w') : w.now ≤ w'.now ∧ Moves w w' act := by
  cases act with
  | tick time =>
    cases taken
    exact ⟨Nat.le_add_right .., .same rfl (fun _ => nofun)⟩
  | append events =>
    cases taken
    exact ⟨Nat.le_refl _, .fresh _ rfl trivial (fun _ => nofun)⟩
  | snapshot =>
    cases taken
    exact ⟨Nat.le_refl _, .fresh _ rfl trivial (fun _ => nofun)⟩
  | wait after timeout =>
    cases taken
    exact ⟨Nat.le_refl _, .fresh _ rfl (fun _ => nofun) (fun _ => nofun)⟩
  | advance i =>
    rw [step] at taken
    split at taken
    · rename_i call found
      obtain ⟨⟨rest, call'⟩, went, rfl⟩ := Option.map_eq_some_iff.mp taken
      exact ⟨(next_now went).ge, .goes i call call' found ⟨rest, went⟩ rfl⟩
    · cases taken
  | failWrite i =>
    rw [step] at taken
    split at taken
    · rename_i events left found
      cases taken
      exact ⟨Nat.le_refl _, .fails i events left found rfl⟩
    · cases taken

/-- A snapshot goes from the read to the mutex and back. -/
theorem snapNext_cases {snap : Snap} {next : Snap ⊕ OperationStreamBacklog} (went : w.snapNext snap = some next) :
    (snap = .reading ∧ next = .inl (.asking w.file)) ∨
    (∃ file, snap = .asking file ∧ w.free = true ∧ next = .inl (.holding file)) ∨
    ∃ file, snap = .holding file ∧ next = .inr (snapshotOf file (w.backlog.replayAfter none)) := by
  unfold snapNext at went
  split at went
  · exact .inl ⟨rfl, (Option.some.inj went).symm⟩
  · rename_i file
    split at went
    · exact .inr (.inl ⟨file, rfl, ‹_›, (Option.some.inj went).symm⟩)
    · cases went
  · rename_i file
    exact .inr (.inr ⟨file, rfl, (Option.some.inj went).symm⟩)

/-- A last snapshot ends the wait. -/
theorem lastNext_cases {after back} {snap : Snap} {at' : WaitAt} (went : w.lastNext after back snap = some at') :
    (snap = .reading ∧ at' = back (.asking w.file)) ∨ (∃ file, snap = .asking file ∧ w.free = true ∧ at' = back (.holding file)) ∨
    ∃ file replay, snap = .holding file ∧ at' = .returned replay := by
  obtain ⟨next, moved, rfl⟩ := Option.map_eq_some_iff.mp went
  obtain ⟨rfl, rfl⟩ | ⟨file, rfl, free, rfl⟩ | ⟨file, rfl, rfl⟩ := snapNext_cases moved
  · exact .inl ⟨rfl, rfl⟩
  · exact .inr (.inl ⟨file, rfl, free, rfl⟩)
  · exact .inr (.inr ⟨file, _, rfl, rfl⟩)

/-- Every move of a wait. -/
inductive WaitMoves (w : World) (deadline : Nat) : WaitAt → WaitAt → Prop where
  | read : WaitMoves w deadline (.first .reading) (.first (.asking w.file))
  | lock (file) : WaitMoves w deadline (.first (.asking file)) (.first (.holding file))
  | found (file replay) : WaitMoves w deadline (.first (.holding file)) (.returned replay)
  | empty (file) : WaitMoves w deadline (.first (.holding file)) .locking
  | relock : WaitMoves w deadline .locking .checking
  | seen (replay) : WaitMoves w deadline .checking (.returned replay)
  | unseen : WaitMoves w deadline .checking (.timing w.generation)
  | early (generation) (before : w.now < deadline) :
    WaitMoves w deadline (.timing generation) (.entering generation (deadline - w.now))
  | late (generation) (reached : deadline ≤ w.now) : WaitMoves w deadline (.timing generation) (.lastHeld .reading)
  | held {snap at'} : WaitMoves w deadline (.lastHeld snap) at'
  | enter (generation remaining) : WaitMoves w deadline (.entering generation remaining) (.rechecking generation (w.now + remaining))
  | changed (generation limit) : WaitMoves w deadline (.rechecking generation limit) (.dropping false)
  | timeout (generation limit) : WaitMoves w deadline (.rechecking generation limit) (.dropping true)
  | release (generation limit) (within : w.now ≤ limit) :
    WaitMoves w deadline (.rechecking generation limit) (.waiting generation limit)
  | wake (generation limit) : WaitMoves w deadline (.waiting generation limit) (.woken generation limit)
  | reacquire (generation limit) : WaitMoves w deadline (.woken generation limit) (.rechecking generation limit)
  | again : WaitMoves w deadline (.dropping false) (.first .reading)
  | over_ : WaitMoves w deadline (.dropping true) (.last .reading)
  | lastRead : WaitMoves w deadline (.last .reading) (.last (.asking w.file))
  | lastLock (file) : WaitMoves w deadline (.last (.asking file)) (.last (.holding file))
  | lastFound (file replay) : WaitMoves w deadline (.last (.holding file)) (.returned replay)

theorem waitNext_moves {after timeout deadline} {at_ at' : WaitAt}
    (went : w.waitNext after timeout deadline at_ = some at') : WaitMoves w deadline at_ at' := by
  cases at_ with
  | first snap =>
    obtain ⟨next, moved, rfl⟩ := Option.map_eq_some_iff.mp went
    obtain ⟨rfl, rfl⟩ | ⟨file, rfl, -, rfl⟩ | ⟨file, rfl, rfl⟩ := snapNext_cases moved
    · exact .read
    · exact .lock file
    · dsimp only
      split
      · exact .found file _
      · exact .empty file
  | last snap =>
    obtain ⟨rfl, rfl⟩ | ⟨file, rfl, -, rfl⟩ | ⟨file, replay, rfl, rfl⟩ := lastNext_cases went
    · exact .lastRead
    · exact .lastLock file
    · exact .lastFound file replay
  | lastHeld snap => exact .held
  | dropping timedOut =>
    cases timedOut with
    | false =>
      cases went
      exact .again
    | true =>
      cases went
      exact .over_
  | locking | checking | timing generation | entering generation remaining | rechecking generation limit
  | waiting generation limit | woken generation limit | returned replay =>
    rw [waitNext] at went
    grind [WaitMoves]

/-- Once its time is over, every step of a wait brings it closer to its end. -/
theorem WaitMoves.overdue {deadline} {at_ at' : WaitAt} (moves : WaitMoves w deadline at_ at')
    (overdue : at_.Overdue w.now deadline) (timely : ∀ generation, at_ = .timing generation → w.now < deadline)
    (released : ∀ snap, at_ ≠ .lastHeld snap) : at'.Overdue w.now deadline ∧ at'.rank < at_.rank := by
  cases moves with
  | early generation before => exact absurd before (Nat.not_lt.mpr overdue)
  | late generation reached => exact absurd (timely generation rfl) (Nat.not_lt.mpr reached)
  | held => exact absurd rfl (released _)
  | enter generation remaining => exact overdue.elim
  | changed | timeout => exact ⟨overdue.1, by simp [WaitAt.rank]⟩
  | release generation limit within => exact absurd overdue.2 (Nat.not_lt.mpr within)
  | _ => exact ⟨overdue, by simp [WaitAt.rank]⟩

/-- Only a look at the clock behind the deadline keeps the mutex over a last snapshot. -/
theorem WaitMoves.released {deadline} {at_ at' : WaitAt} (moves : WaitMoves w deadline at_ at')
    (timely : ∀ generation, at_ = .timing generation → w.now < deadline) (released : ∀ snap, at_ ≠ .lastHeld snap) :
    ∀ snap, at' ≠ .lastHeld snap := by
  cases moves with
  | late generation reached => exact absurd (timely generation rfl) (Nat.not_lt.mpr reached)
  | held => exact absurd rfl (released _)
  | _ => exact fun _ => nofun

/-- .. and every other step with the mutex brings the wait closer to giving it back. -/
theorem WaitMoves.hold {after timeout deadline} {at_ at' : WaitAt} (moves : WaitMoves w deadline at_ at')
    (timely : ∀ generation, at_ = .timing generation → w.now < deadline) (released : ∀ snap, at_ ≠ .lastHeld snap)
    (holds : (Call.wait after timeout deadline at_).holds = true) :
    (Call.wait after timeout deadline at').hold < (Call.wait after timeout deadline at_).hold := by
  cases moves with
  | late generation reached => exact absurd (timely generation rfl) (Nat.not_lt.mpr reached)
  | held => exact absurd rfl (released _)
  | read | lock | relock | wake | reacquire | lastRead | lastLock => cases holds
  | _ => simp [Call.hold]

/-- No call keeps the mutex over a last snapshot. -/
def Released (w : World) : Prop := ∀ (i : Nat) (call : Call), w.calls[i]? = some call → call.Released

theorem start_released (now : Nat) (file : List OperationEvent) : (start now file).Released := nofun

theorem next_released {rest : World} (released : w.Released) (timely : w.InTime (.advance i))
    (found : w.calls[i]? = some call) (went : w.next call = some (rest, call')) : call'.Released := by
  have here := released i call found
  cases call with
  | append events at_ =>
    obtain ⟨-, at', rfl, -⟩ := next_append went
    trivial
  | snapshot snap =>
    obtain ⟨-, ⟨snap', -, rfl⟩ | ⟨backlog, -, rfl⟩⟩ := next_snapshot went
    · trivial
    · trivial
  | taken backlog => cases went
  | wait after timeout deadline at_ =>
    obtain ⟨-, at', moved, rfl⟩ := next_wait went
    apply (waitNext_moves moved).released ?_ here
    rintro generation rfl
    exact timely.timing found

/-- A call of the next state is one of the state before, has just been made, or has gone on. -/
theorem Moves.origin {act : Act} (moves : Moves w w' act) (here : w'.calls[i]? = some call') :
    w.calls[i]? = some call' ∨ (call'.Released ∧ ∀ j, act ≠ .advance j) ∨
    (act = .advance i ∧ ∃ call rest, w.calls[i]? = some call ∧ w.next call = some (rest, call')) := by
  cases moves with
  | same calls other =>
    rw [calls] at here
    exact .inl here
  | fresh call calls released other =>
    rw [calls,List.getElem?_append] at here
    split at here
    · exact .inl here
    · obtain rfl := List.mem_singleton.mp (List.mem_of_getElem? here)
      exact .inr (.inl ⟨released, other⟩)
  | goes j call call' found next calls =>
    obtain ⟨rest, went⟩ := next
    rw [calls,List.getElem?_set] at here
    grind
  | fails j events left found calls =>
    rw [calls,List.getElem?_set] at here
    split at here
    · split at here
      · cases here
        exact .inr (.inl ⟨trivial, fun _ => nofun⟩)
      · cases here
    · exact .inl here

theorem Released.step {act : Act} (released : w.Released) (timely : w.InTime act) (taken : w.step instants act = some w') :
    w'.Released := by
  intro i call' here
  rcases (step_moves taken).2.origin here with old | ⟨fresh, -⟩ | ⟨rfl, call, rest, found, went⟩
  · exact released i call' old
  · exact fresh
  · exact next_released released timely found went

/-- A call stays as it is over the steps of others. -/
theorem Moves.kept {act : Act} (moves : Moves w w' act) (found : w.calls[i]? = some call)
    (written : ∀ events left, call ≠ .append events (.persisting left)) (other : act ≠ .advance i) :
    w'.calls[i]? = some call := by
  cases moves with
  | same calls => rw [calls,found]
  | fresh new calls => rw [calls,List.getElem?_append_left (List.getElem?_eq_some_iff.mp found).1,found]
  | goes j moving moved there next calls =>
    have apart : j ≠ i := fun same => other (by rw [same])
    rw [calls,List.getElem?_set_ne apart,found]
  | fails j events left there calls =>
    have apart : j ≠ i := by
      rintro rfl
      exact written events left (Option.some.inj (found.symm.trans there))
    rw [calls,List.getElem?_set_ne apart,found]

/-- What the state knows of an overdue wait after `done` steps of its own. -/
def Ends (i : Nat) (after : Option OperationStreamCursor) (timeout deadline bound : Nat) (w : World) (done : Nat) : Prop :=
  ∃ at_, w.calls[i]? = some (.wait after timeout deadline at_) ∧ at_.Overdue w.now deadline ∧ done + at_.rank ≤ bound

theorem WaitAt.Overdue.later {now now' deadline : Nat} {at_ : WaitAt} (overdue : at_.Overdue now deadline) (later : now ≤ now') :
    at_.Overdue now' deadline := by
  cases at_ <;> simp only [Operation.WaitAt.Overdue] at overdue ⊢ <;> omega

theorem Ends.step {after timeout deadline bound done} {act : Act} (ends : Ends i after timeout deadline bound w done)
    (released : w.Released) (timely : w.InTime act) (taken : w.step instants act = some w') :
    Ends i after timeout deadline bound w' (done + if act = .advance i then 1 else 0) := by
  obtain ⟨at_, found, overdue, within⟩ := ends
  obtain ⟨later, moves⟩ := step_moves taken
  by_cases own : act = .advance i
  · subst own
    cases moves with
    | same calls other => exact absurd rfl (other i)
    | fresh new calls fresh other => exact absurd rfl (other i)
    | goes i moving moved there next calls =>
      obtain ⟨rest, went⟩ := next
      obtain rfl := Option.some.inj (found.symm.trans there)
      obtain ⟨-, at', moved, rfl⟩ := next_wait went
      have closer := (waitNext_moves moved).overdue overdue
        (by
          rintro generation rfl
          exact timely.timing found)
        (released i _ found)
      refine ⟨at', ?_, WaitAt.Overdue.later closer.1 later, ?_⟩
      · rw [calls,List.getElem?_set_self (List.getElem?_eq_some_iff.mp found).1]
      · rw [if_pos rfl]
        omega
  · refine ⟨at_, moves.kept found (fun _ _ => nofun) own, WaitAt.Overdue.later overdue later, ?_⟩
    rw [if_neg own]
    omega

/-- A wait that is overdue has at most so many steps of its own left as its rank, whatever the
others do. -/
theorem Ends.run {after timeout deadline bound done} {more : List Act} (ends : Ends i after timeout deadline bound w done)
    (released : w.Released) (timely : Meets (World.step instants) w InTime more)
    (run : steps (World.step instants) w more = some w') :
    Ends i after timeout deadline bound w' (done + more.count (.advance i)) := by
  induction more using List.reverseRecOn generalizing w' with
  | nil =>
    obtain rfl := Option.some.inj run
    exact ends
  | append_singleton more act ih =>
    obtain ⟨u, before, last⟩ := steps_concat_some run
    obtain ⟨earlier, here⟩ := (meets_concat before).mp timely
    have known := earlier.invariant before released (fun _ _ _ kept here taken => Released.step kept here taken)
    have next := (ih earlier before).step known here last
    rw [List.count_append,List.count_singleton,← Nat.add_assoc]
    simpa using next

theorem Call.Released.apart (released : call.Released) : ¬(call.asks = true ∧ call.holds = true) := by
  rintro ⟨asks, holds⟩
  cases call with
  | append events at_ => cases at_ <;> simp [Call.asks,Call.holds] at asks holds
  | snapshot snap => cases snap <;> simp [Call.asks,Call.holds,Snap.asks,Snap.holds] at asks holds
  | taken backlog => cases asks
  | wait after timeout deadline at_ =>
    cases at_ with
    | lastHeld snap => exact released snap rfl
    | first snap | last snap => cases snap <;> simp [Call.asks,Call.holds,Snap.asks,Snap.holds] at asks holds
    | _ => simp [Call.asks,Call.holds] at asks holds

theorem snapNext_some {snap : Snap} (free : snap.asks = true → w.free = true) : ∃ next, w.snapNext snap = some next := by
  cases snap with
  | asking file => exact ⟨_, if_pos (free rfl)⟩
  | _ => exact ⟨_, rfl⟩

/-- Nothing but the mutex in other hands keeps a call from its next step. -/
theorem next_some (running : call.returned = false) (free : call.asks = true → w.free = true) :
    ∃ rest call', w.next call = some (rest, call') := by
  have wait (after timeout deadline at_) (moves : (w.waitNext after timeout deadline at_).isSome = true) :
      ∃ rest call', w.next (.wait after timeout deadline at_) = some (rest, call') := by
    obtain ⟨at', moved⟩ := Option.isSome_iff_exists.mp moves
    exact ⟨w, .wait after timeout deadline at', by rw [next,moved,Option.map_some]⟩
  cases call with
  | append events at_ =>
    cases at_ with
    | asking =>
      by_cases empty : events = []
      · exact ⟨_, _, if_pos empty⟩
      · refine ⟨w, .append events .holding, ?_⟩
        rw [next,if_neg empty,if_pos (free rfl)]
    | holding => exact ⟨_, _, rfl⟩
    | persisting left => cases left <;> exact ⟨_, _, rfl⟩
    | returned => cases running
  | snapshot snap =>
    obtain ⟨snap' | backlog, moved⟩ := snapNext_some (w := w) free
    · exact ⟨w, .snapshot snap', by rw [next,moved,Option.map_some]⟩
    · exact ⟨w, .taken backlog, by rw [next,moved,Option.map_some]⟩
  | taken backlog => cases running
  | wait after timeout deadline at_ =>
    cases at_ with
    | first snap | lastHeld snap | last snap =>
      obtain ⟨next, moved⟩ := snapNext_some (w := w) free
      exact wait _ _ _ _ (by simp [waitNext,lastNext,moved])
    | locking | woken => exact wait _ _ _ _ (by simp [waitNext,free rfl])
    | checking | timing =>
      apply wait
      rw [waitNext]
      split <;> rfl
    | rechecking =>
      apply wait
      rw [waitNext]
      split
      · rfl
      · split <;> rfl
    | dropping timedOut => cases timedOut <;> exact wait _ _ _ _ rfl
    | entering | waiting => exact wait _ _ _ _ rfl
    | returned replay => cases running

theorem next_hold {rest : World} (released : w.Released) (timely : w.InTime (.advance i)) (found : w.calls[i]? = some call)
    (holds : call.holds = true) (went : w.next call = some (rest, call')) : call'.hold < call.hold := by
  have here := released i call found
  cases call with
  | append events at_ =>
    obtain ⟨-, at', rfl, later⟩ := next_append went
    cases at_ with
    | holding =>
      obtain rfl := later rfl
      exact Nat.one_pos
    | _ => cases holds
  | snapshot snap =>
    cases snap with
    | holding file =>
      cases went
      exact Nat.one_pos
    | _ => cases holds
  | taken backlog => cases holds
  | wait after timeout deadline at_ =>
    obtain ⟨-, at', moved, rfl⟩ := next_wait went
    apply (waitNext_moves moved).hold ?_ here holds
    rintro generation rfl
    exact timely.timing found

theorem advance_of_next (instants : Nat) (found : w.calls[i]? = some call) {rest : World} (went : w.next call = some (rest, call')) :
    ∃ w', w.step instants (.advance i) = some w' ∧ w'.calls[i]? = some call' := by
  refine ⟨{ rest with calls := w.calls.set i call' }, ?_, ?_⟩
  · simp only [step,found,went,Option.map_some]
  · exact List.getElem?_set_self (List.getElem?_eq_some_iff.mp found).1

theorem returned_of_rank {at_ : WaitAt} (ended : at_.rank = 0) : ∃ replay, at_ = .returned replay := by
  unfold WaitAt.rank at ended
  split at ended
  · exact ⟨_, rfl⟩
  all_goals cases ended

/-- No call waits for itself, and none keeps the others waiting. -/
structure Unblocked (instants : Nat) (w : World) : Prop where
  /-- No call asks for the mutex it holds. -/
  apart : ∀ (i : Nat) (call : Call), w.calls[i]? = some call → ¬(call.asks = true ∧ call.holds = true)
  /-- Who holds the mutex can go on, and every step brings it closer to giving it back. -/
  holder : ∀ (i : Nat) (call : Call), w.calls[i]? = some call → call.holds = true →
    ∃ w' call', w.step instants (.advance i) = some w' ∧ w'.calls[i]? = some call' ∧
      (w.InTime (.advance i) → call'.hold < call.hold)
  /-- When nobody holds it, every call that has not returned can go on. -/
  others : w.free = true → ∀ (i : Nat) (call : Call), w.calls[i]? = some call → call.returned = false →
    ∃ w', w.step instants (.advance i) = some w'
  /-- An overdue wait returns after so many steps of its own, whatever the others do. -/
  ends : ∀ (i : Nat) after timeout deadline at_, w.calls[i]? = some (.wait after timeout deadline at_) →
    at_.Overdue w.now deadline → ∀ more w', Meets (World.step instants) w InTime more →
    steps (World.step instants) w more = some w' → at_.rank ≤ more.count (.advance i) →
    ∃ replay, w'.calls[i]? = some (.wait after timeout deadline (.returned replay))

theorem Released.unblocked (released : w.Released) : w.Unblocked instants where
  apart i call found := Call.Released.apart (released i call found)
  holder i call found holds := by
    have apart := Call.Released.apart (released i call found)
    have running : call.returned = false := by
      cases call with
      | append events at_ => cases at_ <;> first | rfl | cases holds
      | wait after timeout deadline at_ => cases at_ <;> first | rfl | cases holds
      | _ => first | rfl | cases holds
    obtain ⟨rest, call', went⟩ := next_some (w := w) running (fun asks => absurd ⟨asks, holds⟩ apart)
    obtain ⟨w', taken, there⟩ := advance_of_next instants found went
    exact ⟨w', call', taken, there, fun timely => next_hold released timely found holds went⟩
  others free i call found running := by
    obtain ⟨rest, call', went⟩ := next_some (w := w) running (fun _ => free)
    obtain ⟨w', taken, -⟩ := advance_of_next instants found went
    exact ⟨w', taken⟩
  ends i after timeout deadline at_ found overdue more w' timely run enough := by
    have known : Ends i after timeout deadline at_.rank w 0 := ⟨at_, found, overdue, by omega⟩
    obtain ⟨at', there, -, within⟩ := known.run released timely run
    obtain ⟨replay, rfl⟩ := returned_of_rank (show at'.rank = 0 by omega)
    exact ⟨replay, there⟩

/-- In every run in which every wait looks at the clock before its deadline, in every state: no
call waits for itself, and none keeps the others waiting. -/
theorem waits_unblocked (now : Nat) (file : List OperationEvent) {acts : List Act}
    (timely : Meets (step instants) (start now file) InTime acts) :
    ∀ w, Visits (step instants) (start now file) acts w → w.Unblocked instants := by
  intro w visited
  exact (timely.visited (start_released now file) (fun _ _ _ kept here taken => kept.step here taken) w visited).unblocked

theorem free_of_holds (found : w.calls[i]? = some call) (holds : call.holds = true) : w.free = false := by
  apply Bool.eq_false_iff.mpr
  intro free
  simpa [holds] using List.all_eq_true.mp free call (List.mem_of_getElem? found)

/-- A call that asks for the mutex it holds stays there in every run. -/
theorem selfBlocked_stays {file : List OperationEvent} {after timeout deadline} {more : List Act}
    (found : w.calls[i]? = some (.wait after timeout deadline (.lastHeld (.asking file))))
    (run : steps (step instants) w more = some w') :
    w'.calls[i]? = some (.wait after timeout deadline (.lastHeld (.asking file))) := by
  change (fun u : World => u.calls[i]? = some (.wait after timeout deadline (.lastHeld (.asking file)))) w'
  apply steps_invariant run found
  intro s act s' here taken
  obtain ⟨-, moves⟩ := step_moves taken
  apply moves.kept here (fun _ _ => nofun)
  rintro rfl
  have held := free_of_holds here rfl
  simp [step,here,next,waitNext,lastNext,snapNext,held] at taken

end World

/-- A wait of five ticks that times out on the condition variable. -/
def timedOutRun : List Act :=
  [Act.wait none 5] ++ List.replicate 8 (Act.advance 0) ++ [Act.tick 6] ++ List.replicate 7 (Act.advance 0)

/-- The deadline falls between the first look at the events and the look at the clock. -/
def lateRun : List Act :=
  [Act.wait none 5] ++ List.replicate 5 (Act.advance 0) ++ [Act.tick 5] ++ List.replicate 2 (Act.advance 0) ++
    [Act.snapshot, Act.advance 1]

theorem timedOut_returns : ∃ w, steps (World.step 100) (.start 0 []) timedOutRun = some w ∧
    w.calls = [.wait none 5 5 (.returned [])] ∧ w.Unblocked 100 := by
  have timely : Meets (World.step 100) (.start 0 []) World.InTime timedOutRun := meets_of_check (by decide)
  have ended : steps (World.step 100) (.start 0 []) timedOutRun =
      some ⟨6, .new backlogCapacity, 0, [], [.wait none 5 5 (.returned [])]⟩ := by decide
  exact ⟨_, ended, rfl, World.waits_unblocked 0 [] timely _ (visits_last ended)⟩

/-- The wait asks for the mutex it holds, for ever, and another caller never gets it. -/
theorem late_blocks : ∃ w, steps (World.step 100) (.start 0 []) lateRun = some w ∧
    (∃ call, w.calls[0]? = some call ∧ call.asks = true ∧ call.holds = true) ∧
    ∀ more w', steps (World.step 100) w more = some w' → w'.calls[0]? = w.calls[0]? ∧ w'.free = false := by
  have ended : steps (World.step 100) (.start 0 []) lateRun = some ⟨5, .new backlogCapacity, 0, [],
      [.wait none 5 5 (.lastHeld (.asking [])), .snapshot (.asking [])]⟩ := by decide
  refine ⟨_, ended, ⟨_, rfl, rfl, rfl⟩, ?_⟩
  intro more w' run
  have stays := World.selfBlocked_stays (i := 0) rfl run
  exact ⟨stays, World.free_of_holds stays rfl⟩

end Zaion.Operation
