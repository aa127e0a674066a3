import Mathlib.Data.List.Dedup
import Mathlib.Data.List.Destutter
import Mathlib.Order.Defs.LinearOrder

/-! The checkpoint of a batch: which prompts are done and which failed. It is read, normalized
and written again for every prompt. -/
namespace Zaion.Batch

structure BatchCheckpoint where
  completed : List Nat
  failed : List Nat
  lastUpdated : String
  deriving DecidableEq

/-- `sort_unstable` and `dedup` of numbers; `dedup` drops neighbours that are equal. -/
def sortDedup (l : List Nat) : List Nat := (l.mergeSort (fun a b => decide (a ≤ b))).destutter (· ≠ ·)

/-- `normalize_checkpoint`, with whether it changed anything. -/
def normalizeCheckpoint (cp : BatchCheckpoint) : BatchCheckpoint × Bool :=
  let completed := sortDedup cp.completed
  let failed := sortDedup (cp.failed.filter (fun i => i ∉ completed))
  ({ cp with completed := completed, failed := failed }, decide (completed ≠ cp.completed ∨ failed ≠ cp.failed))

def BatchCheckpoint.empty (now : String) : BatchCheckpoint := ⟨[], [], now⟩

/-- `fs::write`, which may fail and then leaves the file. -/
def writeCheckpoint (file : Option BatchCheckpoint) (cp : BatchCheckpoint) (ok : Bool) : Bool × Option BatchCheckpoint :=
  if ok then (true, some cp) else (false, file)

/-- The checkpoint, normalized; `none` when the write of the normalized one fails. -/
def loadCheckpoint (file : Option BatchCheckpoint) (now : String) (ok : Bool) :
    Option BatchCheckpoint × Option BatchCheckpoint :=
  match file with
  | none => (some (.empty now), none)
  | some cp =>
    let (normal, changed) := normalizeCheckpoint cp
    if changed then
      let stamped := { normal with lastUpdated := now }
      match writeCheckpoint file stamped ok with
      | (true, file) => (some stamped, file)
      | (false, file) => (none, file)
    else (some normal, file)

/-- `loaded` and `ok` say how the writes of the load and of the update end. -/
def updateCheckpoint (file : Option BatchCheckpoint) (i : Nat) (success : Bool) (now : String) (loaded ok : Bool) :
    Bool × Option BatchCheckpoint :=
  match loadCheckpoint file now loaded with
  | (none, file) => (false, file)
  | (some cp, file) =>
    let updated : BatchCheckpoint :=
      if success then { cp with completed := cp.completed ++ [i], failed := cp.failed.filter (· ≠ i) }
      else { cp with completed := cp.completed.filter (· ≠ i), failed := cp.failed ++ [i] }
    writeCheckpoint file { (normalizeCheckpoint updated).1 with lastUpdated := now } ok

theorem mergeSort_sorted (l : List Nat) : (l.mergeSort (fun a b => decide (a ≤ b))).Pairwise (· ≤ ·) := by
  have transitive (a b c : Nat) (first : decide (a ≤ b) = true) (second : decide (b ≤ c) = true) : decide (a ≤ c) = true :=
    decide_eq_true (Nat.le_trans (of_decide_eq_true first) (of_decide_eq_true second))
  have total (a b : Nat) : (decide (a ≤ b) || decide (b ≤ a)) = true := by
    rcases Nat.le_total a b with less | more <;> simp [*]
  exact (List.pairwise_mergeSort transitive total l).imp of_decide_eq_true

theorem sortDedup_eq (l : List Nat) : sortDedup l = (l.mergeSort (fun a b => decide (a ≤ b))).dedup :=
  (mergeSort_sorted l).destutter_eq_dedup

@[simp] theorem mem_sortDedup {l : List Nat} {i : Nat} : i ∈ sortDedup l ↔ i ∈ l := by
  rw [sortDedup_eq,List.mem_dedup,List.mem_mergeSort]

theorem nodup_sortDedup (l : List Nat) : (sortDedup l).Nodup := by
  rw [sortDedup_eq]
  exact List.nodup_dedup _

theorem sortDedup_sortDedup (l : List Nat) : sortDedup (sortDedup l) = sortDedup l := by
  have sorted : (sortDedup l).Pairwise (fun a b => decide (a ≤ b) = true) := by
    rw [sortDedup_eq]
    exact ((mergeSort_sorted l).sublist (List.dedup_sublist _)).imp decide_eq_true
  rw [sortDedup_eq (sortDedup l),List.mergeSort_of_pairwise sorted,(nodup_sortDedup l).dedup]

/-- Normalizing finds nothing to do. -/
def BatchCheckpoint.Normal (cp : BatchCheckpoint) : Prop := normalizeCheckpoint cp = (cp, false)

section

variable {cp : BatchCheckpoint} {file : Option BatchCheckpoint} {i j : Nat} {success loaded ok : Bool} {now : String}

theorem mem_normalize_completed : j ∈ (normalizeCheckpoint cp).1.completed ↔ j ∈ cp.completed := by
  simp [normalizeCheckpoint]

theorem mem_normalize_failed : j ∈ (normalizeCheckpoint cp).1.failed ↔ j ∈ cp.failed ∧ j ∉ cp.completed := by
  simp [normalizeCheckpoint]

theorem normalize_normal (cp : BatchCheckpoint) (now : String) :
    ({ (normalizeCheckpoint cp).1 with lastUpdated := now } : BatchCheckpoint).Normal := by
  have kept : (sortDedup (cp.failed.filter (fun i => i ∉ sortDedup cp.completed))).filter
      (fun i => i ∉ sortDedup cp.completed) = sortDedup (cp.failed.filter (fun i => i ∉ sortDedup cp.completed)) := by
    rw [List.filter_eq_self]
    intro j member
    exact (List.mem_filter.mp (mem_sortDedup.mp member)).2
  simp only [BatchCheckpoint.Normal,normalizeCheckpoint,sortDedup_sortDedup,kept]
  simp

theorem BatchCheckpoint.Normal.nodup (normal : cp.Normal) : cp.completed.Nodup ∧ cp.failed.Nodup := by
  have same : (normalizeCheckpoint cp).1 = cp := congrArg Prod.fst normal
  rw [← same]
  exact ⟨nodup_sortDedup _, nodup_sortDedup _⟩

theorem BatchCheckpoint.Normal.disjoint (normal : cp.Normal) (failed : j ∈ cp.failed) : j ∉ cp.completed := by
  have same : (normalizeCheckpoint cp).1 = cp := congrArg Prod.fst normal
  exact (mem_normalize_failed.mp (same.symm ▸ failed)).2

/-- What the file says; nothing where there is none. -/
def completedOf (file : Option BatchCheckpoint) : List Nat := (file.map BatchCheckpoint.completed).getD []
def failedOf (file : Option BatchCheckpoint) : List Nat := (file.map BatchCheckpoint.failed).getD []

def NormalFile (file : Option BatchCheckpoint) : Prop := ∀ cp, file = some cp → cp.Normal

theorem loadCheckpoint_normal (normal : NormalFile file) :
    ∃ cp, loadCheckpoint file now ok = (some cp, file) ∧ cp.completed = completedOf file ∧ cp.failed = failedOf file := by
  cases file with
  | none => exact ⟨.empty now, rfl, rfl, rfl⟩
  | some cp =>
    refine ⟨cp, ?_, rfl, rfl⟩
    rw [loadCheckpoint,normal cp rfl]
    rfl

/-- An update records the prompt in one list and takes it from the other. -/
theorem updateCheckpoint_spec (normal : NormalFile file) (i : Nat) (success : Bool) (now : String) (loaded ok : Bool) :
    ∃ cp, updateCheckpoint file i success now loaded ok = (ok, if ok then some cp else file) ∧ cp.Normal ∧
      (∀ j, j ∈ cp.completed ↔ if success then j ∈ completedOf file ∨ j = i else j ∈ completedOf file ∧ j ≠ i) ∧
      ∀ j, j ∈ cp.failed ↔ (if success then j ∈ failedOf file ∧ j ≠ i else j ∈ failedOf file ∨ j = i) ∧ j ∉ cp.completed := by
  obtain ⟨cp, load, completed, failed⟩ := @loadCheckpoint_normal _ loaded now normal
  rw [← completed,← failed]
  refine ⟨_, ?_, normalize_normal (if success then { cp with completed := cp.completed ++ [i], failed := cp.failed.filter (· ≠ i) }
    else { cp with completed := cp.completed.filter (· ≠ i), failed := cp.failed ++ [i] }) now, ?_, ?_⟩
  · rw [updateCheckpoint,load]
    cases ok <;> rfl
  · intro j
    dsimp only
    rw [mem_normalize_completed]
    cases success <;> simp
  · intro j
    dsimp only
    rw [mem_normalize_completed,mem_normalize_failed]
    cases success <;> simp

end

end Zaion.Batch
