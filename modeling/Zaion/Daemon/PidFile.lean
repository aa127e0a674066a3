import Mathlib.Data.Nat.Digits.Defs
import Mathlib.Logic.Function.Basic
import Zaion.Lib.Steps
import Zaion.Lib.Text

/-! The pid file of the daemon and the processes that take and give up its lock. An acquire
reads the file, probes the process it names and writes its own pid; a release or drop looks
for the file and removes it: each of these is a step of its own, in any order between
processes, and a process may die before any of them. -/
namespace Zaion.Daemon

open Zaion.Lib

/-- The file on disk. An unreadable one is there but `read_to_string` fails on it. -/
inductive PidFile where
  | absent
  | unreadable
  | text (s : String)
  deriving DecidableEq

def PidFile.exists_ : PidFile → Bool
  | .absent => false
  | _ => true

/-- `parse::<u32>`: an optional sign, then decimal digits of a number that fits. -/
def parseU32 (s : String) : Option UInt32 :=
  let digits := match s.toList with
    | '+' :: rest => rest
    | chars => chars
  if digits ≠ [] ∧ digits.all Char.isDigit ∧ Nat.ofDigitChars 10 digits 0 < 4294967296 then
    some (UInt32.ofNat (Nat.ofDigitChars 10 digits 0))
  else none

/-- `pid.to_string()`. -/
def pidText (pid : UInt32) : String := String.ofList (Nat.toDigits 10 pid.toNat)

def readPid : PidFile → Option UInt32
  | .text raw => parseU32 (trim raw)
  | _ => none

theorem isWhiteSpace_digit {c : Char} (digit : c.isDigit = true) : isWhiteSpace c = false := by
  have bounds : 48 ≤ c.val.toNat ∧ c.val.toNat ≤ 57 := by
    rw [Char.isDigit,Bool.and_eq_true,decide_eq_true_eq,decide_eq_true_eq,ge_iff_le,UInt32.le_iff_toNat_le,
      UInt32.le_iff_toNat_le] at digit
    exact digit
  change 48 ≤ c.toNat ∧ c.toNat ≤ 57 at bounds
  simp only [isWhiteSpace,Bool.or_eq_false_iff,Bool.and_eq_false_iff,decide_eq_false_iff_not,beq_eq_false_iff_ne]
  omega

theorem pidText_digit {pid : UInt32} {c : Char} (member : c ∈ Nat.toDigits 10 pid.toNat) : c.isDigit = true :=
  Nat.isDigit_of_mem_toDigits (by decide) (by decide) member

theorem trim_pidText (pid : UInt32) : trim (pidText pid) = pidText pid := by
  have front : (Nat.toDigits 10 pid.toNat).dropWhile isWhiteSpace = Nat.toDigits 10 pid.toNat := by
    cases shape : Nat.toDigits 10 pid.toNat with
    | nil => rfl
    | cons c rest =>
      have digit : c.isDigit = true := @pidText_digit pid c (by simp [shape])
      simp [isWhiteSpace_digit digit]
  have back : (Nat.toDigits 10 pid.toNat).rdropWhile isWhiteSpace = Nat.toDigits 10 pid.toNat := by
    rw [List.rdropWhile_eq_self_iff]
    intro some_
    have digit := pidText_digit (List.getLast_mem some_)
    simp [isWhiteSpace_digit digit]
  rw [trim_eq,pidText,String.toList_ofList,front,back]

/-- A process reads back the pid it wrote. -/
@[simp] theorem readPid_pidText (pid : UInt32) : readPid (.text (pidText pid)) = some pid := by
  have digits : (Nat.toDigits 10 pid.toNat).all Char.isDigit = true :=
    List.all_eq_true.mpr (fun c member => pidText_digit member)
  have unsigned : (match Nat.toDigits 10 pid.toNat with
      | '+' :: rest => rest
      | chars => chars) = Nat.toDigits 10 pid.toNat := by
    split
    · rename_i shape
      have digit := @pidText_digit pid '+' (by simp [shape])
      simp at digit
    · rfl
  have small : pid.toNat < 4294967296 := pid.toNat_lt
  rw [readPid,trim_pidText,parseU32,pidText,String.toList_ofList]
  simp [unsigned,digits,small,Nat.toDigits_ne_nil,Nat.ofDigitChars_toDigits]

inductive DaemonError where
  | alreadyRunning (pid : UInt32)
  | io
  deriving DecidableEq

/-- Where a process is in a call: it read the file, was told that a daemon runs, found the
lock free, or is in `remove_file_if_exists` before or after the look. `again` is the `Drop`
that runs when `release` fails. -/
inductive Phase where
  | idle
  | reading (found : Option UInt32)
  | refused
  | free
  | leaving (again : Bool)
  | unlinking (again : Bool)
  deriving DecidableEq

structure Proc where
  phase : Phase := .idle
  handles : Nat := 0
  result : Option (Except DaemonError Unit) := none

structure State where
  file : PidFile
  procs : UInt32 → Option Proc

namespace State

def put (s : State) (p : UInt32) (x : Option Proc) : State := { s with procs := Function.update s.procs p x }

def alive (s : State) (p : UInt32) : Bool := (s.procs p).isSome

/-- A live process with a `DaemonHandle`. -/
def holds (s : State) (p : UInt32) : Prop := ∃ x, s.procs p = some x ∧ 0 < x.handles

@[simp] theorem put_file (s : State) (p : UInt32) (x : Option Proc) : (s.put p x).file = s.file := rfl

@[simp] theorem put_same (s : State) (p : UInt32) (x : Option Proc) : (s.put p x).procs p = x := by simp [put]

@[simp] theorem put_other {p q : UInt32} (s : State) (x : Option Proc) (other : q ≠ p) :
    (s.put p x).procs q = s.procs q := by
  simp [put,other]

end State

/-- `DaemonHandle::is_running` on what was read. The probe of another process can be blind:
a host without `/proc`, a `tasklist` that fails. -/
def isRunning (s : State) (self : UInt32) (found : Option UInt32) (probe : Bool) : Bool :=
  match found with
  | some pid => if pid = self then true else probe && s.alive pid
  | none => false

/-- How `fs::write` ends. A cut one leaves the first bytes only. -/
inductive Written where
  | done
  | unopened
  | cut (n : Nat)
  deriving DecidableEq

inductive Act where
  | spawn (p : UInt32)
  | die (p : UInt32)
  | read (p : UInt32)
  | probe (p : UInt32) (works : Bool)
  | report (p : UInt32)
  | write (p : UInt32) (written : Written)
  | release (p : UInt32)
  | drop (p : UInt32)
  | look (p : UInt32)
  | unlink (p : UInt32) (ok : Bool)

/-- The write of `acquire`, after its check. -/
def State.write (s : State) (p : UInt32) (x : Proc) : Written → State
  | .done => { s.put p (some ⟨.idle, x.handles + 1, some (.ok ())⟩) with file := .text (pidText p) }
  | .unopened => s.put p (some { x with phase := .idle, result := some (.error .io) })
  | .cut n =>
    { s.put p (some { x with phase := .idle, result := some (.error .io) }) with
      file := .text (String.ofList ((pidText p).toList.take n)) }

/-- `fs::remove_file` after the look, whatever the file holds by then. -/
def State.unlink (s : State) (p : UInt32) (x : Proc) (again ok : Bool) : State :=
  if ok && s.file.exists_ then
    { s.put p (some { x with phase := .idle, result := if again then some (.ok ()) else x.result }) with file := .absent }
  else if again then s.put p (some { x with phase := .leaving false, result := some (.error .io) })
  else s.put p (some { x with phase := .idle })

def step (s : State) : Act → Option State
  | .spawn p => match s.procs p with
    | none => some (s.put p (some {}))
    | some _ => none
  | .die p => match s.procs p with
    | some _ => some (s.put p none)
    | none => none
  | .read p => match s.procs p with
    | some ⟨.idle, n, result⟩ => some (s.put p (some ⟨.reading (readPid s.file), n, result⟩))
    | _ => none
  | .probe p works => match s.procs p with
    | some ⟨.reading found, n, result⟩ =>
      some (s.put p (some ⟨if isRunning s p found works then .refused else .free, n, result⟩))
    | _ => none
  | .report p => match s.procs p with
    | some ⟨.refused, n, _⟩ =>
      some (s.put p (some ⟨.idle, n, some (.error (.alreadyRunning ((readPid s.file).getD 0)))⟩))
    | _ => none
  | .write p written => match s.procs p with
    | some ⟨.free, n, result⟩ => some (s.write p ⟨.free, n, result⟩ written)
    | _ => none
  | .release p => match s.procs p with
    | some ⟨.idle, n + 1, result⟩ => some (s.put p (some ⟨.leaving true, n, result⟩))
    | _ => none
  | .drop p => match s.procs p with
    | some ⟨.idle, n + 1, result⟩ => some (s.put p (some ⟨.leaving false, n, result⟩))
    | _ => none
  | .look p => match s.procs p with
    | some ⟨.leaving again, n, result⟩ =>
      if s.file.exists_ then some (s.put p (some ⟨.unlinking again, n, result⟩))
      else some (s.put p (some ⟨.idle, n, if again then some (.ok ()) else result⟩))
    | _ => none
  | .unlink p ok => match s.procs p with
    | some ⟨.unlinking again, n, result⟩ => some (s.unlink p ⟨.unlinking again, n, result⟩ again ok)
    | _ => none

/-- The handle a process has, or the one it is giving up. -/
def Phase.tokens : Phase → Nat
  | .leaving _ => 1
  | .unlinking _ => 1
  | _ => 0

def Proc.tokens (x : Proc) : Nat := x.handles + x.phase.tokens

/-- Whoever has or gives up a handle is named by the file, and nobody is about to write then. -/
structure Inv (s : State) : Prop where
  named : ∀ p x, s.procs p = some x → 0 < x.tokens → readPid s.file = some p
  single : ∀ p x, s.procs p = some x → x.tokens ≤ 1
  alone : ∀ p x, s.procs p = some x → x.phase = .free →
    ∀ q y, s.procs q = some y → y.tokens = 0 ∧ (y.phase = .free → q = p)

section

variable {s s' : State} {p q : UInt32} {x y : Proc} {again ok : Bool}

theorem State.put_cases {new : Option Proc} (there : (s.put p new).procs q = some y) :
    (q = p ∧ new = some y) ∨ (q ≠ p ∧ s.procs q = some y) := by
  by_cases same : q = p
  · subst same
    exact .inl ⟨rfl, by simpa using there⟩
  · exact .inr ⟨same, by simpa [same] using there⟩

/-- The file stays, and the process that moves gains no handle and is not about to write. -/
theorem Inv.quiet {new : Option Proc} (inv : Inv s)
    (fewer : ∀ y, new = some y → y.phase ≠ .free ∧ (y.tokens = 0 ∨ ∃ x, s.procs p = some x ∧ y.tokens ≤ x.tokens)) :
    Inv (s.put p new) := by
  have old : ∀ q y, (s.put p new).procs q = some y → y.tokens = 0 ∨ ∃ x, s.procs q = some x ∧ y.tokens ≤ x.tokens := by
    intro q y there
    rcases State.put_cases there with ⟨rfl, rfl⟩ | ⟨_, there⟩
    · exact (fewer y rfl).2
    · exact .inr ⟨y, there, le_rfl⟩
  have was : ∀ q y, (s.put p new).procs q = some y → y.phase = .free → s.procs q = some y := by
    intro q y there free
    rcases State.put_cases there with ⟨rfl, rfl⟩ | ⟨_, there⟩
    · exact absurd free (fewer y rfl).1
    · exact there
  constructor
  · intro q y there some_
    rcases old q y there with none_ | ⟨x, here, le⟩
    · omega
    · exact inv.named q x here (by omega)
  · intro q y there
    rcases old q y there with none_ | ⟨x, here, le⟩
    · omega
    · exact le.trans (inv.single q x here)
  · intro q y there free r z later
    refine ⟨?_, fun free' => (inv.alone q y (was q y there free) free r z (was r z later free')).2 free'⟩
    rcases old r z later with none_ | ⟨x, here, le⟩
    · exact none_
    · have := (inv.alone q y (was q y there free) free r x here).1
      omega

/-- .. as when a live process moves on with the handles it has. -/
theorem Inv.keep (inv : Inv s) (here : s.procs p = some x) (waits : y.phase ≠ .free) (le : y.tokens ≤ x.tokens) :
    Inv (s.put p (some y)) := by
  refine inv.quiet ?_
  intro z same
  obtain rfl := Option.some.inj same
  exact ⟨waits, .inr ⟨x, here, le⟩⟩

/-- Nobody has a handle or is about to write, the process at `p` apart. -/
theorem Inv.fresh {file : PidFile} {new : Proc}
    (others : ∀ q y, s.procs q = some y → q ≠ p → y.tokens = 0 ∧ y.phase ≠ .free)
    (waits : new.phase ≠ .free) (single : new.tokens ≤ 1) (named : 0 < new.tokens → readPid file = some p) :
    Inv { s.put p (some new) with file := file } := by
  have all : ∀ q y, (s.put p (some new)).procs q = some y →
      (q = p ∧ y = new) ∨ (q ≠ p ∧ y.tokens = 0 ∧ y.phase ≠ .free) := by
    intro q y there
    rcases State.put_cases there with ⟨rfl, same⟩ | ⟨other, there⟩
    · exact .inl ⟨rfl, (Option.some.inj same).symm⟩
    · exact .inr ⟨other, others q y there other⟩
  constructor
  · intro q y there some_
    rcases all q y there with ⟨rfl, rfl⟩ | ⟨_, none_, _⟩
    · exact named some_
    · omega
  · intro q y there
    rcases all q y there with ⟨rfl, rfl⟩ | ⟨_, none_, _⟩
    · exact single
    · omega
  · intro q y there free
    rcases all q y there with ⟨rfl, rfl⟩ | ⟨_, _, busy⟩
    · exact absurd free waits
    · exact absurd free busy

/-- An acquire finds the lock free only while no other process that found it free has yet to
write, and while the file does not name a live process that has or gives up a handle. -/
def Unraced (s : State) : Act → Prop
  | .probe p works => ∀ found n result, s.procs p = some ⟨.reading found, n, result⟩ →
      isRunning s p found works = false →
      ∀ q y, s.procs q = some y → y.phase ≠ .free ∧ (readPid s.file = some q → y.tokens = 0)
  | _ => True

/-- A probe that works, of what the file still says: only the writes to come matter. -/
theorem unraced_of_seen (seen : ∀ found n result, s.procs p = some ⟨.reading found, n, result⟩ → found = readPid s.file)
    (waits : ∀ q y, s.procs q = some y → y.phase ≠ .free) : Unraced s (.probe p true) := by
  intro found n result here free q y there
  refine ⟨waits q y there, fun named => ?_⟩
  obtain rfl := (seen found n result here).trans named
  have alive : s.alive q = true := by rw [State.alive,there]; rfl
  simp [isRunning,alive] at free

theorem Inv.probe {found : Option UInt32} {works : Bool} {n : Nat} {result : Option (Except DaemonError Unit)}
    (inv : Inv s) (unraced : Unraced s (.probe p works)) (here : s.procs p = some ⟨.reading found, n, result⟩) :
    Inv (s.put p (some ⟨if isRunning s p found works then .refused else .free, n, result⟩)) := by
  cases running : isRunning s p found works with
  | true =>
    exact inv.keep here nofun le_rfl
  | false =>
    have idle : ∀ q y, s.procs q = some y → y.tokens = 0 ∧ y.phase ≠ .free := by
      intro q y there
      obtain ⟨waits, unnamed⟩ := unraced found n result here running q y there
      refine ⟨?_, waits⟩
      by_contra some_
      exact some_ (unnamed (inv.named q y there (by omega)))
    have none_ : ∀ q y, (s.put p (some ⟨.free, n, result⟩)).procs q = some y →
        y.tokens = 0 ∧ (y.phase = .free → q = p) := by
      intro q y there
      rcases State.put_cases there with ⟨rfl, same⟩ | ⟨_, there⟩
      · obtain rfl := Option.some.inj same
        exact ⟨(idle q _ here).1, fun _ => rfl⟩
      · exact ⟨(idle q y there).1, fun free => absurd free (idle q y there).2⟩
    constructor
    · intro q y there some_
      have := (none_ q y there).1
      omega
    · intro q y there
      have := (none_ q y there).1
      omega
    · intro q y there free r z later
      refine ⟨(none_ r z later).1, fun free' => ?_⟩
      rw [(none_ q y there).2 free,(none_ r z later).2 free']

theorem Inv.write {n : Nat} {result : Option (Except DaemonError Unit)} {written : Written} (inv : Inv s)
    (here : s.procs p = some ⟨.free, n, result⟩) : Inv (s.write p ⟨.free, n, result⟩ written) := by
  have others : ∀ q y, s.procs q = some y → q ≠ p → y.tokens = 0 ∧ y.phase ≠ .free := by
    intro q y there other
    obtain ⟨none_, unique⟩ := inv.alone p _ here rfl q y there
    exact ⟨none_, fun free => other (unique free)⟩
  have none_ : n = 0 := by simpa [Proc.tokens,Phase.tokens] using (inv.alone p _ here rfl p _ here).1
  subst none_
  cases written with
  | done => exact Inv.fresh others nofun le_rfl (fun _ => readPid_pidText p)
  | unopened => exact @Inv.fresh _ _ s.file _ others nofun (Nat.zero_le 1) nofun
  | cut n => exact Inv.fresh others nofun (Nat.zero_le 1) nofun

theorem Inv.unlink {n : Nat} {result : Option (Except DaemonError Unit)} (inv : Inv s)
    (here : s.procs p = some ⟨.unlinking again, n, result⟩) : Inv (s.unlink p ⟨.unlinking again, n, result⟩ again ok) := by
  have last : n = 0 := by
    have := inv.single p _ here
    simp only [Proc.tokens,Phase.tokens] at this
    omega
  subst last
  have file := inv.named p _ here Nat.one_pos
  rw [State.unlink]
  split
  · refine Inv.fresh ?_ nofun (Nat.zero_le 1) nofun
    intro q y there other
    constructor
    · by_contra some_
      have named := inv.named q y there (by omega)
      exact other (Option.some.inj (named.symm.trans file))
    · intro free
      cases (inv.alone q y there free p _ here).1
  · split
    · exact inv.keep here nofun le_rfl
    · exact inv.keep here nofun (Nat.zero_le _)

theorem Inv.step {a : Act} (inv : Inv s) (unraced : Unraced s a) (taken : step s a = some s') : Inv s' := by
  cases a with
  | spawn p =>
    rw [Daemon.step] at taken
    split at taken <;> cases taken
    refine inv.quiet ?_
    intro y same
    obtain rfl := Option.some.inj same
    exact ⟨nofun, .inl rfl⟩
  | die p =>
    rw [Daemon.step] at taken
    split at taken <;> cases taken
    exact inv.quiet nofun
  | read p =>
    rw [Daemon.step] at taken
    split at taken <;> cases taken
    rename_i here
    exact inv.keep here nofun le_rfl
  | probe p works =>
    rw [Daemon.step] at taken
    split at taken <;> cases taken
    exact inv.probe unraced ‹_›
  | report p =>
    rw [Daemon.step] at taken
    split at taken <;> cases taken
    rename_i here
    exact inv.keep here nofun le_rfl
  | write p written =>
    rw [Daemon.step] at taken
    split at taken <;> cases taken
    exact inv.write ‹_›
  | release p =>
    rw [Daemon.step] at taken
    split at taken <;> cases taken
    rename_i here
    exact inv.keep here nofun le_rfl
  | drop p =>
    rw [Daemon.step] at taken
    split at taken <;> cases taken
    rename_i here
    exact inv.keep here nofun le_rfl
  | look p =>
    rw [Daemon.step] at taken
    split at taken
    · split at taken <;> cases taken
      · rename_i here _
        exact inv.keep here nofun le_rfl
      · rename_i here _
        exact inv.keep here nofun (Nat.le_succ _)
    · cases taken
  | unlink p ok =>
    rw [Daemon.step] at taken
    split at taken <;> cases taken
    exact inv.unlink ‹_›

/-- A process that takes its handle's file away leaves the file of another live holder alone. -/
def Spares (s : State) : Act → Prop
  | .unlink p ok => ∀ s', step s (.unlink p ok) = some s' → s'.file ≠ s.file →
      ∀ q, s.holds q → q ≠ p → readPid s.file ≠ some q
  | _ => True

def Exclusive (s : State) : Prop := ∀ p q, s.holds p → s.holds q → p = q

theorem Inv.holds (inv : Inv s) (held : s.holds p) : readPid s.file = some p := by
  obtain ⟨x, here, some_⟩ := held
  exact inv.named p x here (by rw [Proc.tokens]; omega)

theorem Inv.exclusive (inv : Inv s) : Exclusive s := by
  intro p q first second
  exact Option.some.inj ((inv.holds first).symm.trans (inv.holds second))

theorem Inv.spares (inv : Inv s) (a : Act) : Spares s a := by
  cases a with
  | unlink p ok =>
    intro s' taken changed q held other named
    rw [Daemon.step] at taken
    split at taken
    · rename_i here
      have mine := inv.named p _ here (by simp [Proc.tokens,Phase.tokens])
      exact other (Option.some.inj (named.symm.trans mine))
    · cases taken
  | _ => trivial

end

/-- Any file, and live processes that have not called `acquire` yet. -/
def Start (s : State) : Prop := ∀ p x, s.procs p = some x → x.phase = .idle ∧ x.handles = 0

theorem Start.inv {s : State} (start : Start s) : Inv s := by
  have none_ : ∀ p x, s.procs p = some x → x.tokens = 0 ∧ x.phase ≠ .free := by
    intro p x here
    obtain ⟨idle, none_⟩ := start p x here
    exact ⟨by rw [Proc.tokens,idle,none_]; rfl, by rw [idle]; nofun⟩
  constructor
  · intro p x here some_
    have := (none_ p x here).1
    omega
  · intro p x here
    have := (none_ p x here).1
    omega
  · intro p x here free
    exact absurd free (none_ p x here).2

/-- Without races the lock has one live holder at most, and nobody removes its file. -/
theorem daemon_lock {start : State} {acts : List Act} (fresh : Start start) (unraced : Meets step start Unraced acts) :
    (∀ s, Visits step start acts s → Exclusive s) ∧ Meets step start Spares acts := by
  have keeps : ∀ s a s', Inv s → Unraced s a → step s a = some s' → Inv s' :=
    fun s a s' inv here taken => inv.step here taken
  have visited : ∀ s, Visits step start acts s → Inv s := unraced.visited fresh.inv keeps
  refine ⟨fun s here => (visited s here).exclusive, ?_⟩
  intro before a after s split here
  exact (visited s ⟨before, a :: after, split, here⟩).spares a

/-- Two processes that start at the same time, and the first stops. -/
def twoDaemons : State := ⟨.absent, fun p => if p = 1 ∨ p = 2 then some {} else none⟩

def race : List Act := [.read 1, .read 2, .probe 1 true, .probe 2 true, .write 1 .done, .write 2 .done]

theorem twoDaemons_start : Start twoDaemons := by
  intro p x here
  obtain ⟨_, rfl⟩ : (p = 1 ∨ p = 2) ∧ {} = x := by simpa [twoDaemons] using here
  exact ⟨rfl, rfl⟩

/-- Both find no file and both get a handle; the first to stop removes the file of the other. -/
theorem daemon_lock_raced : Start twoDaemons ∧ (∃ s, Visits step twoDaemons race s ∧ ¬ Exclusive s) ∧
    ¬ Meets step twoDaemons Spares (race ++ [.release 1, .look 1, .unlink 1 true]) := by
  refine ⟨twoDaemons_start, ?_, ?_⟩
  · have ends : (steps step twoDaemons race).map (fun s => ((s.procs 1).map Proc.handles, (s.procs 2).map Proc.handles)) =
        some (some 1, some 1) := by decide
    obtain ⟨s, run, shape⟩ := Option.map_eq_some_iff.mp ends
    have first := congrArg Prod.fst shape
    have second := congrArg Prod.snd shape
    obtain ⟨x, here, one⟩ := Option.map_eq_some_iff.mp first
    obtain ⟨y, there, one'⟩ := Option.map_eq_some_iff.mp second
    refine ⟨s, visits_last run, fun exclusive => ?_⟩
    exact absurd (exclusive 1 2 ⟨x, here, by omega⟩ ⟨y, there, by omega⟩) (by decide)
  · intro spares
    have ends : (steps step twoDaemons (race ++ [.release 1, .look 1])).map
        (fun s => ((s.procs 2).map Proc.handles, s.file, (step s (.unlink 1 true)).map State.file)) =
        some (some 1, .text "2", some .absent) := by decide
    obtain ⟨s, run, shape⟩ := Option.map_eq_some_iff.mp ends
    simp only [Prod.mk.injEq] at shape
    obtain ⟨second, file, gone⟩ := shape
    obtain ⟨y, there, one⟩ := Option.map_eq_some_iff.mp second
    obtain ⟨s', taken, absent⟩ := Option.map_eq_some_iff.mp gone
    have spared := spares (race ++ [.release 1, .look 1]) (.unlink 1 true) [] s rfl run s' taken
      (by rw [absent,file]; decide) 2 ⟨y, there, by omega⟩ (by decide)
    exact spared (by rw [file]; decide)

/-- One process takes the lock while the other looks for it, and stops. -/
def turns : List Act :=
  [.read 1, .probe 1 true, .write 1 .done, .read 2, .probe 2 true, .report 2, .release 1, .look 1, .unlink 1 true]

theorem turns_unraced : Meets step twoDaemons Unraced turns := by
  refine meets_cons rfl trivial (meets_cons rfl ?_ (meets_cons rfl trivial (meets_cons rfl trivial (meets_cons rfl ?_
    (meets_cons rfl trivial (meets_cons rfl trivial (meets_cons rfl trivial (meets_cons rfl trivial meets_nil))))))))
  · intro found n result here _ q y there
    rcases State.put_cases there with ⟨rfl, same⟩ | ⟨_, there⟩
    · obtain rfl := Option.some.inj same
      exact ⟨nofun, fun _ => rfl⟩
    · obtain ⟨_, rfl⟩ : (q = 1 ∨ q = 2) ∧ {} = y := by simpa [twoDaemons] using there
      exact ⟨nofun, fun _ => rfl⟩
  · intro found n result here free
    have seen : readPid (.text (pidText 1)) = found := by
      simp only [State.put_same,Option.some.injEq,Proc.mk.injEq,Phase.reading.injEq] at here
      exact here.1
    rw [readPid_pidText] at seen
    rw [← seen] at free
    cases free

theorem turns_locked :
    (∀ s, Visits step twoDaemons turns s → Exclusive s) ∧ Meets step twoDaemons Spares turns :=
  daemon_lock twoDaemons_start turns_unraced

end Zaion.Daemon
