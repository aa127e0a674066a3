import Zaion.Lib.Steps
import Zaion.Lib.Table

/-! The cancellation token of the code executors. A token has a flag and a list of process ids;
a cancel stores the flag, takes a copy of the list and kills what is on the copy, one process id
after the other. A process is its number in the order of spawning, since process ids come back. -/
namespace Zaion.Exec

open Lib

structure CancelToken where
  cancelled : Bool
  pids : List Nat
  deriving DecidableEq, Repr

def CancelToken.registerPid (token : CancelToken) (pid : Nat) : CancelToken :=
  { token with pids := token.pids ++ [pid] }

/-- How far a `cancel` is. -/
inductive Phase where
  | called
  | flagged
  | killing (rest : List Nat)
  | returned
  deriving DecidableEq, Repr

/-- The list is not copied yet. -/
def Phase.early : Phase → Bool
  | .called | .flagged => true
  | _ => false

structure World where
  /-- The process id of every process ever spawned. -/
  spawned : List Nat
  running : List Nat
  token : CancelToken
  /-- Registered processes, by number. -/
  registered : List Nat
  cancels : List Phase
  /-- Registered processes that were sent the kill. -/
  sent : List Nat
  /-- The processes that got a kill. -/
  hit : List Nat
  deriving DecidableEq, Repr

inductive Act where
  | spawn (pid : Nat)
  | exit (process : Nat)
  | register (process : Nat)
  | cancel
  | storeFlag (call : Nat)
  | copyPids (call : Nat)
  | kill (call : Nat)
  deriving DecidableEq, Repr

namespace World

def hasPid (w : World) (pid process : Nat) : Bool := w.spawned[process]? = some pid

/-- No two running processes share a process id. -/
def step (w : World) : Act → Option World
  | .spawn pid =>
    if w.running.any (w.hasPid pid) then none
    else some { w with spawned := w.spawned ++ [pid], running := w.running ++ [w.spawned.length] }
  | .exit p => if p ∈ w.running then some { w with running := w.running.erase p } else none
  | .register p =>
    match w.spawned[p]? with
    | some pid => some { w with token := w.token.registerPid pid, registered := w.registered ++ [p] }
    | none => none
  | .cancel => some { w with cancels := w.cancels ++ [.called] }
  | .storeFlag i =>
    match w.cancels[i]? with
    | some .called => some { w with
        token := { w.token with cancelled := true }
        cancels := w.cancels.set i .flagged }
    | _ => none
  | .copyPids i =>
    match w.cancels[i]? with
    | some .flagged => some { w with cancels := w.cancels.set i (.killing w.token.pids) }
    | _ => none
  | .kill i =>
    match w.cancels[i]? with
    | some (.killing []) => some { w with cancels := w.cancels.set i .returned }
    | some (.killing (pid :: rest)) => some { w with
        cancels := w.cancels.set i (.killing rest)
        sent := w.sent ++ w.registered.filter (w.hasPid pid)
        hit := w.hit ++ w.running.filter (w.hasPid pid) }
    | _ => none

def start : World := ⟨[], [], ⟨false, []⟩, [], [], [], []⟩

/-- A cancel has returned and none is under way. -/
def quiet (w : World) : Bool := !w.cancels.isEmpty && w.cancels.all (fun c => decide (c = .returned))

/-- Once the cancels have returned every registered process was sent the kill, and no other
process ever was. -/
structure Exact (w : World) : Prop where
  all : w.quiet = true → ∀ p ∈ w.registered, p ∈ w.sent
  only : ∀ p ∈ w.hit, p ∈ w.registered

/-- No process id on the token's list comes back, and nothing is registered behind the last copy
of the list or in place of another process. -/
def Timely (w : World) : Act → Prop
  | .spawn pid => pid ∉ w.token.pids
  | .register p => ((∃ c ∈ w.cancels, c.early = true) ∨ ∀ c ∈ w.cancels, c.early = true) ∧
      ∀ q ∈ w.running, w.spawned[q]? = w.spawned[p]? → q = p
  | _ => True

instance (w : World) : (act : Act) → Decidable (w.Timely act)
  | .spawn pid => inferInstanceAs (Decidable (pid ∉ w.token.pids))
  | .register p => inferInstanceAs (Decidable (((∃ c ∈ w.cancels, c.early = true) ∨ ∀ c ∈ w.cancels, c.early = true) ∧
      ∀ q ∈ w.running, w.spawned[q]? = w.spawned[p]? → q = p))
  | .exit _ | .cancel | .storeFlag _ | .copyPids _ | .kill _ => isTrue trivial

/-- Every registered process was sent the kill or is on a copy that is worked off. -/
def Covered (w : World) : Prop := ∀ p ∈ w.registered, p ∈ w.sent ∨
  ∃ rest, Phase.killing rest ∈ w.cancels ∧ ∃ pid ∈ rest, w.spawned[p]? = some pid

structure Kept (w : World) : Prop where
  listed : ∀ p ∈ w.registered, ∃ pid ∈ w.token.pids, w.spawned[p]? = some pid
  alive : ∀ p ∈ w.running, p < w.spawned.length
  own : ∀ pid ∈ w.token.pids, ∀ q ∈ w.running, w.spawned[q]? = some pid → q ∈ w.registered
  copied : ∀ rest, Phase.killing rest ∈ w.cancels → ∀ pid ∈ rest, pid ∈ w.token.pids
  covered : (∃ c ∈ w.cancels, c.early = true) ∨ (∀ c ∈ w.cancels, c.early = true) ∨ w.Covered
  only : ∀ p ∈ w.hit, p ∈ w.registered

theorem start_kept : start.Kept where
  listed := by simp [start]
  alive := by simp [start]
  own := by simp [start]
  copied := by simp [start]
  covered := .inr (.inl (by simp [start]))
  only := by simp [start]

section

variable {w : World} {i : Nat}

theorem Kept.exact (kept : w.Kept) : w.Exact where
  only := kept.only
  all := by
    intro quiet p member
    obtain ⟨some_, all⟩ := Bool.and_eq_true_iff.mp quiet
    have returned (c : Phase) (here : c ∈ w.cancels) : c = .returned := of_decide_eq_true (List.all_eq_true.mp all c here)
    rcases kept.covered with ⟨c, here, early⟩ | early | covered
    · rw [returned c here] at early
      cases early
    · obtain ⟨c, rest, split⟩ := List.exists_cons_of_ne_nil (l := w.cancels) (by simpa using some_)
      have here : c ∈ w.cancels := by
        rw [split]
        exact List.mem_cons_self
      have one := early c here
      rw [returned c here] at one
      cases one
    · rcases covered p member with sent | ⟨rest, here, _⟩
      · exact sent
      · cases returned _ here

theorem Kept.spawn (kept : w.Kept) {pid : Nat} (fresh : pid ∉ w.token.pids) :
    ({ w with spawned := w.spawned ++ [pid], running := w.running ++ [w.spawned.length] } : World).Kept where
  listed := by
    intro p member
    obtain ⟨pid', inside, found⟩ := kept.listed p member
    refine ⟨pid', inside, ?_⟩
    rw [List.getElem?_append_left (List.getElem?_eq_some_iff.mp found).1]
    exact found
  alive := by
    intro p member
    rw [List.length_append,List.length_singleton]
    rcases List.mem_append.mp member with old | new
    · have := kept.alive p old
      omega
    · rw [List.mem_singleton.mp new]
      omega
  own := by
    intro pid' inside q member found
    rcases List.mem_append.mp member with old | new
    · rw [List.getElem?_append_left (kept.alive q old)] at found
      exact kept.own pid' inside q old found
    · rw [List.mem_singleton.mp new,List.getElem?_concat_length] at found
      cases found
      exact absurd inside fresh
  copied := kept.copied
  covered := by
    rcases kept.covered with some_ | all | covered
    · exact .inl some_
    · exact .inr (.inl all)
    · refine .inr (.inr ?_)
      intro p member
      rcases covered p member with sent | ⟨rest, here, pid', inside, found⟩
      · exact .inl sent
      · refine .inr ⟨rest, here, pid', inside, ?_⟩
        rw [List.getElem?_append_left (List.getElem?_eq_some_iff.mp found).1]
        exact found
  only := kept.only

theorem Kept.exit (kept : w.Kept) (p : Nat) : ({ w with running := w.running.erase p } : World).Kept where
  listed := kept.listed
  alive := fun q member => kept.alive q (List.mem_of_mem_erase member)
  own := fun pid inside q member => kept.own pid inside q (List.mem_of_mem_erase member)
  copied := kept.copied
  covered := kept.covered
  only := kept.only

theorem Kept.register (kept : w.Kept) {p pid : Nat} (found : w.spawned[p]? = some pid) (timely : w.Timely (.register p)) :
    ({ w with token := w.token.registerPid pid, registered := w.registered ++ [p] } : World).Kept where
  listed := by
    intro q member
    rcases List.mem_append.mp member with old | new
    · obtain ⟨pid', inside, here⟩ := kept.listed q old
      exact ⟨pid', List.mem_append_left _ inside, here⟩
    · rw [List.mem_singleton.mp new]
      exact ⟨pid, List.mem_append_right _ List.mem_cons_self, found⟩
  alive := kept.alive
  own := by
    intro pid' inside q member here
    rcases List.mem_append.mp inside with old | new
    · exact List.mem_append_left _ (kept.own pid' old q member here)
    · rw [List.mem_singleton.mp new] at here
      rw [timely.2 q member (here.trans found.symm)]
      exact List.mem_append_right _ List.mem_cons_self
  copied := fun rest here pid' inside => List.mem_append_left _ (kept.copied rest here pid' inside)
  covered := timely.1.imp_right .inl
  only := fun q member => List.mem_append_left _ (kept.only q member)

/-- A new cancel has yet to copy the list. -/
theorem Kept.cancel (kept : w.Kept) : ({ w with cancels := w.cancels ++ [.called] } : World).Kept where
  listed := kept.listed
  alive := kept.alive
  own := kept.own
  copied := by
    intro rest here
    rcases List.mem_append.mp here with old | new
    · exact kept.copied rest old
    · cases List.mem_singleton.mp new
  covered := .inl ⟨.called, List.mem_append_right _ List.mem_cons_self, rfl⟩
  only := kept.only

theorem Kept.storeFlag (kept : w.Kept) (found : w.cancels[i]? = some .called) :
    ({ w with token := { w.token with cancelled := true }, cancels := w.cancels.set i .flagged } : World).Kept where
  listed := kept.listed
  alive := kept.alive
  own := kept.own
  copied := by
    intro rest here
    rcases List.mem_or_eq_of_mem_set here with old | new
    · exact kept.copied rest old
    · cases new
  covered := .inl ⟨.flagged, List.mem_set (List.getElem?_eq_some_iff.mp found).1 _, rfl⟩
  only := kept.only

/-- The copy has every registered process. -/
theorem Kept.copyPids (kept : w.Kept) (found : w.cancels[i]? = some .flagged) :
    ({ w with cancels := w.cancels.set i (.killing w.token.pids) } : World).Kept where
  listed := kept.listed
  alive := kept.alive
  own := kept.own
  copied := by
    intro rest here
    rcases List.mem_or_eq_of_mem_set here with old | new
    · exact kept.copied rest old
    · cases new
      exact fun _ inside => inside
  covered := by
    refine .inr (.inr ?_)
    intro p member
    exact .inr ⟨w.token.pids, List.mem_set (List.getElem?_eq_some_iff.mp found).1 _, kept.listed p member⟩
  only := kept.only

/-- While a cancel is at work, another one has yet to copy the list or everything is covered. -/
theorem Kept.early_or_covered (kept : w.Kept) {pids : List Nat} (found : w.cancels[i]? = some (.killing pids)) (next : Phase) :
    (∃ c ∈ w.cancels.set i next, c.early = true) ∨ w.Covered := by
  rcases kept.covered with ⟨c, here, early⟩ | all | covered
  · refine .inl ⟨c, Table.mem_set_of_ne found here ?_, early⟩
    rintro rfl
    cases early
  · cases all _ (List.mem_of_getElem? found)
  · exact .inr covered

theorem Kept.done (kept : w.Kept) (found : w.cancels[i]? = some (.killing [])) :
    ({ w with cancels := w.cancels.set i .returned } : World).Kept where
  listed := kept.listed
  alive := kept.alive
  own := kept.own
  copied := by
    intro rest here
    rcases List.mem_or_eq_of_mem_set here with old | new
    · exact kept.copied rest old
    · cases new
  covered := by
    rcases kept.early_or_covered found .returned with early | covered
    · exact .inl early
    · refine .inr (.inr ?_)
      intro p member
      rcases covered p member with sent | ⟨rest, here, pid, inside, spawned⟩
      · exact .inl sent
      · refine .inr ⟨rest, Table.mem_set_of_ne found here ?_, pid, inside, spawned⟩
        intro same
        cases same
        cases inside
  only := kept.only

theorem hasPid_iff {pid p : Nat} : w.hasPid pid p = true ↔ w.spawned[p]? = some pid := by
  simp [hasPid]

theorem Kept.kill (kept : w.Kept) {pid : Nat} {rest : List Nat} (found : w.cancels[i]? = some (.killing (pid :: rest))) :
    ({ w with
      cancels := w.cancels.set i (.killing rest)
      sent := w.sent ++ w.registered.filter (w.hasPid pid)
      hit := w.hit ++ w.running.filter (w.hasPid pid) } : World).Kept where
  listed := kept.listed
  alive := kept.alive
  own := kept.own
  copied := by
    intro rest' here
    rcases List.mem_or_eq_of_mem_set here with old | new
    · exact kept.copied rest' old
    · cases new
      exact fun pid' inside => kept.copied _ (List.mem_of_getElem? found) pid' (List.mem_cons_of_mem pid inside)
  covered := by
    rcases kept.early_or_covered found (.killing rest) with early | covered
    · exact .inl early
    · refine .inr (.inr ?_)
      intro p member
      rcases covered p member with sent | ⟨rest', here, pid', inside, spawned⟩
      · exact .inl (List.mem_append_left _ sent)
      · by_cases same : Phase.killing rest' = .killing (pid :: rest)
        · cases same
          rcases List.mem_cons.mp inside with rfl | later
          · exact .inl (List.mem_append_right _ (List.mem_filter.mpr ⟨member, hasPid_iff.mpr spawned⟩))
          · exact .inr ⟨rest, List.mem_set (List.getElem?_eq_some_iff.mp found).1 _, pid', later, spawned⟩
        · exact .inr ⟨rest', Table.mem_set_of_ne found here same, pid', inside, spawned⟩
  only := by
    intro p member
    rcases List.mem_append.mp member with old | new
    · exact kept.only p old
    · obtain ⟨running, here⟩ := List.mem_filter.mp new
      have listed := kept.copied _ (List.mem_of_getElem? found) pid List.mem_cons_self
      exact kept.own pid listed p running (hasPid_iff.mp here)

theorem Kept.step {w' : World} {act : Act} (kept : w.Kept) (timely : w.Timely act) (taken : w.step act = some w') :
    w'.Kept := by
  cases act with
  | spawn pid =>
    rw [World.step] at taken
    split at taken
    · cases taken
    · cases taken
      exact kept.spawn timely
  | exit p =>
    rw [World.step] at taken
    split at taken
    · cases taken
      exact kept.exit p
    · cases taken
  | register p =>
    rw [World.step] at taken
    split at taken
    · rename_i pid found
      cases taken
      exact kept.register found timely
    · cases taken
  | cancel =>
    cases taken
    exact kept.cancel
  | storeFlag i =>
    rw [World.step] at taken
    split at taken
    · rename_i found
      cases taken
      exact kept.storeFlag found
    · cases taken
  | copyPids i =>
    rw [World.step] at taken
    split at taken
    · rename_i found
      cases taken
      exact kept.copyPids found
    · cases taken
  | kill i =>
    rw [World.step] at taken
    split at taken
    · rename_i found
      cases taken
      exact kept.done found
    · rename_i found
      cases taken
      exact kept.kill found
    · cases taken

/-- In every run of timely steps, in every state: a returned cancel has reached every registered
process, and no kill has reached another one. -/
theorem cancel_exact {acts : List Act} (timely : Meets World.step start Timely acts) :
    ∀ w, Visits World.step start acts w → w.Exact := by
  intro w visited
  exact (timely.visited start_kept (fun _ _ _ kept here taken => kept.step here taken) w visited).exact

end

end World

/-- Two children, one of them registered while the cancel is at work on its flag. -/
def registeredInTime : List Act :=
  [.spawn 7, .register 0, .spawn 8, .cancel, .storeFlag 0, .register 1, .copyPids 0, .kill 0, .kill 0, .kill 0]

theorem registeredInTime_exact : ∃ w, steps World.step World.start registeredInTime = some w ∧
    w.quiet = true ∧ w.registered = [0, 1] ∧ w.hit = [0, 1] ∧ w.Exact := by
  have ended : steps World.step World.start registeredInTime = some ⟨[7, 8], [0, 1], ⟨true, [7, 8]⟩, [0, 1], [.returned],
      [0, 1], [0, 1]⟩ := by decide
  have timely : Meets World.step World.start World.Timely registeredInTime := meets_of_check (by decide)
  exact ⟨_, ended, by decide, rfl, rfl, World.cancel_exact timely _ (visits_last ended)⟩

/-- A child registered behind the copy is never sent the kill, and a process that got the
process id of one that exited is. -/
theorem cancel_not_exact :
    (∃ w, steps World.step World.start [.spawn 7, .cancel, .storeFlag 0, .copyPids 0, .kill 0, .register 0] = some w ∧
      w.quiet = true ∧ 0 ∈ w.registered ∧ 0 ∈ w.running ∧ 0 ∉ w.sent) ∧
    ∃ w, steps World.step World.start [.spawn 7, .register 0, .exit 0, .spawn 7, .cancel, .storeFlag 0, .copyPids 0, .kill 0,
      .kill 0] = some w ∧ w.hit = [1] ∧ w.registered = [0] := by
  refine ⟨⟨⟨[7], [0], ⟨true, [7]⟩, [0], [.returned], [], []⟩, ?_⟩, ⟨⟨[7, 7], [1], ⟨true, [7]⟩, [0], [.returned], [0], [1]⟩, ?_⟩⟩
  · decide
  · decide

end Zaion.Exec
