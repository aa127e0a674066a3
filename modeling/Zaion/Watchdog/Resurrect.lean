import Zaion.Lib.Cut
import Zaion.Watchdog.History

/-! The resurrector: a fix is applied, the main process restarted and the repair recorded. The file
system, the process and the history answer as they will; a slice that panics ends everything. -/
namespace Zaion.Watchdog

open Lib

/-- What the surroundings answer. -/
structure Surroundings where
  overwriteFile : String → String → Except WatchdogError Unit
  spawn : Except String Nat
  writePidFile : Nat → Except String Unit
  add : RepairEntry → Except WatchdogError Int

/-- How a call ends. -/
inductive Ended (α : Type) where
  | returned (result : Except WatchdogError α)
  | panicked
  deriving Repr

def applyFix (around : Surroundings) (plan : HealPlan) : Ended String :=
  match plan.fixType with
  | .fileContent =>
    match plan.filePath with
    | none => .returned (.error (.resurrectFailed "no file path in heal plan"))
    | some path =>
      match around.overwriteFile path plan.content with
      | .error e => .returned (.error e)
      | .ok () => .returned (.ok ("Overwrote " ++ path ++ " with LLM-provided content"))
  | .description =>
    match startOf 200 plan.content with
    | none => .panicked
    | some desc => .returned (.ok ("Manual fix required: " ++ desc))
  | .unknown => .returned (.ok "LLM could not provide a fix — manual intervention required")

structure ResurrectResult where
  fixAction : String
  newPid : Option Nat
  message : String
  repairEntryId : Int
  deriving DecidableEq, Repr

/-- What a sequence has come to; the main process is restarted once it is spawned. -/
inductive Stage where
  | applied (action : String)
  | restarted (pid : Nat)
  | recording (entry : RepairEntry)
  deriving DecidableEq, Repr

def restartMain (around : Surroundings) : List Stage × Except WatchdogError Nat :=
  match around.spawn with
  | .error e => ([], .error (.resurrectFailed ("failed to spawn main process: " ++ e)))
  | .ok pid =>
    match around.writePidFile pid with
    | .error e => ([.restarted pid], .error (.resurrectFailed ("write pid file: " ++ e)))
    | .ok () => ([.restarted pid], .ok pid)

structure Sequence where
  stages : List Stage
  ended : Ended ResurrectResult
  deriving Repr

section

variable (host : Host) (keypair : Keypair) (timestamp : String) (around : Surroundings) (crashReport : CrashReport)
  (plan : HealPlan)

def resultOf : HealFixType → RepairResult
  | .fileContent => .success
  | .description | .unknown => .manualRequired

def resurrectMessage (newPid : Option Nat) : String :=
  if newPid.isSome then "Config corruption detected and self-healed. We are back online."
  else "Manual intervention required for this repair."

/-- The end of `resurrect`, from the new entry on. -/
def recordRepair (stages : List Stage) (fixAction : String) (newPid : Option Nat) : Sequence :=
  match RepairEntry.new host keypair timestamp crashReport plan (resultOf plan.fixType) newPid with
  | none => ⟨stages, .panicked⟩
  | some entry =>
    match around.add entry with
    | .error e => ⟨stages ++ [.recording entry], .returned (.error e)⟩
    | .ok id => ⟨stages ++ [.recording entry], .returned (.ok ⟨fixAction, newPid, resurrectMessage newPid, id⟩)⟩

def resurrect : Sequence :=
  match applyFix around plan with
  | .panicked => ⟨[], .panicked⟩
  | .returned (.error e) => ⟨[], .returned (.error e)⟩
  | .returned (.ok fixAction) =>
    match plan.fixType with
    | .fileContent =>
      match restartMain around with
      | (stages, .error e) => ⟨.applied fixAction :: stages, .returned (.error e)⟩
      | (stages, .ok pid) => recordRepair host keypair timestamp around crashReport plan (.applied fixAction :: stages)
          fixAction (some pid)
    | .description | .unknown => recordRepair host keypair timestamp around crashReport plan [.applied fixAction]
        fixAction none

end

/-- Once the main process is restarted, the repair is recorded. -/
def Records (seq : Sequence) : Prop := (∃ pid, .restarted pid ∈ seq.stages) → ∃ entry, .recording entry ∈ seq.stages

/-- The file is overwritten and the main process spawned. -/
structure Restarts (around : Surroundings) (plan : HealPlan) (pid : Nat) : Prop where
  fix : plan.fixType = .fileContent
  overwritten : ∃ path, plan.filePath = some path ∧ around.overwriteFile path plan.content = .ok ()
  spawned : around.spawn = .ok pid

theorem startOf_truncated_iff {limit : Nat} {text : String} :
    Truncated (startOf limit text) limit text "" ↔ Cuttable limit text := by
  apply truncated_iff
  · intro fits
    have whole : firstBytes text.utf8ByteSize text.toList = some text.toList :=
      firstBytes_iff.mpr ⟨List.prefix_rfl, (utf8ByteSize_eq text).symm⟩
    rw [startOf,Nat.min_eq_left fits,whole,Option.map_some,String.ofList_toList]
  · intro more
    refine ⟨id, fun _ => List.prefix_rfl, ?_⟩
    rw [startOf,Nat.min_eq_right (Nat.le_of_lt more)]
    simp

theorem startOf_isSome_iff {limit : Nat} {text : String} : (startOf limit text).isSome = true ↔ Cuttable limit text := by
  rw [← startOf_truncated_iff]
  constructor
  · intro returned
    rcases Nat.lt_or_ge limit text.utf8ByteSize with more | fits
    · rw [startOf,Nat.min_eq_right (Nat.le_of_lt more),Option.isSome_map] at returned
      exact startOf_truncated_iff.mpr (.inr (firstBytes_isSome_iff.mp (Option.isSome_iff_exists.mp returned)))
    · exact startOf_truncated_iff.mpr (.inl fits)
  · rintro ⟨kept, -, returned⟩
    rw [returned]
    rfl

/-- Something of a text is kept as it should be. -/
theorem startOf_part_iff {limit : Nat} {text : String} :
    (∃ kept, startOf limit text = some kept ∧ Part limit text kept) ↔ Cuttable limit text := by
  rw [← startOf_truncated_iff]
  constructor
  · rintro ⟨kept, cut, part⟩
    exact ⟨kept, part, by simpa using cut⟩
  · rintro ⟨kept, part, cut⟩
    exact ⟨kept, by simpa using cut, part⟩

section

variable (host : Host) (keypair : Keypair) (timestamp : String) (around : Surroundings) (crashReport : CrashReport)
  (plan : HealPlan)

/-- The summary is all an entry can fail at. -/
theorem RepairEntry.new_summary_iff (result : RepairResult) (newPid : Option Nat) (summary : String) :
    (∃ entry, RepairEntry.new host keypair timestamp crashReport plan result newPid = some entry ∧
      entry.crashSummary = summary) ↔ startOf 500 crashReport.stackTrace = some summary := by
  unfold RepairEntry.new
  cases startOf 500 crashReport.stackTrace with
  | none => simp
  | some kept => simp

theorem RepairEntry.new_truncated_iff (result : RepairResult) (newPid : Option Nat) :
    (∃ entry, RepairEntry.new host keypair timestamp crashReport plan result newPid = some entry ∧
      Part 500 crashReport.stackTrace entry.crashSummary) ↔ Cuttable 500 crashReport.stackTrace := by
  rw [← startOf_part_iff]
  constructor
  · rintro ⟨entry, made, part⟩
    exact ⟨entry.crashSummary, (new_summary_iff host keypair timestamp crashReport plan result newPid _).mp
      ⟨entry, made, rfl⟩, part⟩
  · rintro ⟨summary, cut, part⟩
    obtain ⟨entry, made, rfl⟩ := (new_summary_iff host keypair timestamp crashReport plan result newPid summary).mpr cut
    exact ⟨entry, made, part⟩

/-- A fix is described by a part of the plan's text; the other fixes cut nothing. -/
def Described (ended : Ended String) : Prop :=
  match plan.fixType with
  | .description => ∃ desc, ended = .returned (.ok ("Manual fix required: " ++ desc)) ∧ Part 200 plan.content desc
  | .fileContent | .unknown => ended ≠ .panicked

theorem applyFix_described_iff :
    Described plan (applyFix around plan) ↔ (plan.fixType = .description → Cuttable 200 plan.content) := by
  unfold Described applyFix
  cases plan.fixType with
  | description =>
    simp only [forall_const]
    rw [← startOf_part_iff]
    cases startOf 200 plan.content with
    | none => simp
    | some kept => simp
  | fileContent =>
    simp only [ne_eq,reduceCtorEq,false_implies,iff_true]
    intro panics
    split at panics
    · cases panics
    · split at panics
      · cases panics
      · cases panics
  | unknown => simp

theorem RepairEntry.new_isSome_iff (result : RepairResult) (newPid : Option Nat) :
    (RepairEntry.new host keypair timestamp crashReport plan result newPid).isSome = true ↔
      Cuttable 500 crashReport.stackTrace := by
  rw [← startOf_isSome_iff]
  unfold RepairEntry.new
  cases startOf 500 crashReport.stackTrace with
  | none => simp
  | some kept => simp

theorem recordRepair_stages (stages : List Stage) (fixAction : String) (newPid : Option Nat) :
    (recordRepair host keypair timestamp around crashReport plan stages fixAction newPid).stages = stages ++
      ((RepairEntry.new host keypair timestamp crashReport plan (resultOf plan.fixType) newPid).map Stage.recording).toList := by
  unfold recordRepair
  split
  · next panics => simp [panics]
  · next entry made =>
    rw [made]
    split
    · rfl
    · rfl

theorem recordRepair_recording_iff {stages : List Stage} (before : ∀ entry, .recording entry ∉ stages) (fixAction : String)
    (newPid : Option Nat) :
    (∃ entry, .recording entry ∈ (recordRepair host keypair timestamp around crashReport plan stages fixAction newPid).stages) ↔
      Cuttable 500 crashReport.stackTrace := by
  rw [← RepairEntry.new_isSome_iff host keypair timestamp crashReport plan (resultOf plan.fixType) newPid,
    recordRepair_stages]
  simp [before,Option.isSome_iff_exists]

theorem restarted_of_recordRepair {stages : List Stage} {fixAction : String} {newPid : Option Nat} {pid : Nat}
    (restarted : .restarted pid ∈ (recordRepair host keypair timestamp around crashReport plan stages fixAction newPid).stages) :
    .restarted pid ∈ stages := by
  rw [recordRepair_stages] at restarted
  simpa using restarted

theorem overwritten_iff (fix : plan.fixType = .fileContent) :
    (∃ action, applyFix around plan = .returned (.ok action)) ↔
      ∃ path, plan.filePath = some path ∧ around.overwriteFile path plan.content = .ok () := by
  unfold applyFix
  simp only [fix]
  cases plan.filePath with
  | none => simp
  | some path => cases write : around.overwriteFile path plan.content with
    | error e => simp [write]
    | ok _ => simp [write]

theorem restartMain_restarted_iff (pid : Nat) : .restarted pid ∈ (restartMain around).1 ↔ around.spawn = .ok pid := by
  unfold restartMain
  split
  · next e failed => simp [failed]
  · next new spawned =>
    split
    · simp [spawned,eq_comm]
    · simp [spawned,eq_comm]

theorem restartMain_recording (entry : RepairEntry) : .recording entry ∉ (restartMain around).1 := by
  unfold restartMain
  split
  · simp
  · split
    · simp
    · simp

theorem resurrect_of_other (other : plan.fixType ≠ .fileContent) {pid : Nat} :
    .restarted pid ∉ (resurrect host keypair timestamp around crashReport plan).stages := by
  intro restarted
  unfold resurrect at restarted
  split at restarted
  · cases restarted
  · cases restarted
  · split at restarted
    · next fix => exact other fix
    · have none_ := restarted_of_recordRepair _ _ _ _ _ _ restarted
      simp at none_
    · have none_ := restarted_of_recordRepair _ _ _ _ _ _ restarted
      simp at none_

/-- A sequence without an overwritten file and a spawned process restarts nothing. -/
theorem restarts_of_restarted {pid : Nat}
    (restarted : .restarted pid ∈ (resurrect host keypair timestamp around crashReport plan).stages) :
    Restarts around plan pid := by
  have fix : plan.fixType = .fileContent := by
    by_contra other
    exact resurrect_of_other host keypair timestamp around crashReport plan other restarted
  unfold resurrect at restarted
  simp only [fix] at restarted
  split at restarted
  · cases restarted
  · cases restarted
  · next action applied =>
    refine ⟨fix, (overwritten_iff around plan fix).mp ⟨action, applied⟩, ?_⟩
    rw [← restartMain_restarted_iff]
    split at restarted
    · next stages e failed =>
      rw [failed]
      simpa using restarted
    · next stages new done =>
      rw [done]
      have here := restarted_of_recordRepair _ _ _ _ _ _ restarted
      simpa using here

theorem resurrect_of_unwritten {pid : Nat} (restarts : Restarts around plan pid) {e : String}
    (unwritten : around.writePidFile pid = .error e) : ∃ action,
    (resurrect host keypair timestamp around crashReport plan).stages = [.applied action, .restarted pid] := by
  obtain ⟨action, applied⟩ := (overwritten_iff around plan restarts.fix).mpr restarts.overwritten
  refine ⟨action, ?_⟩
  simp [resurrect,applied,restarts.fix,restartMain,restarts.spawned,unwritten]

theorem resurrect_of_written {pid : Nat} (restarts : Restarts around plan pid)
    (written : around.writePidFile pid = .ok ()) : ∃ action,
    resurrect host keypair timestamp around crashReport plan =
      recordRepair host keypair timestamp around crashReport plan [.applied action, .restarted pid] action (some pid) := by
  obtain ⟨action, applied⟩ := (overwritten_iff around plan restarts.fix).mpr restarts.overwritten
  refine ⟨action, ?_⟩
  simp [resurrect,applied,restarts.fix,restartMain,restarts.spawned,written]

theorem resurrect_recording_iff {pid : Nat} (restarts : Restarts around plan pid) :
    (∃ entry, .recording entry ∈ (resurrect host keypair timestamp around crashReport plan).stages) ↔
      around.writePidFile pid = .ok () ∧ Cuttable 500 crashReport.stackTrace := by
  cases write : around.writePidFile pid with
  | error e =>
    obtain ⟨action, stages⟩ := resurrect_of_unwritten host keypair timestamp around crashReport plan restarts write
    simp [stages]
  | ok _ =>
    obtain ⟨action, here⟩ := resurrect_of_written host keypair timestamp around crashReport plan restarts write
    rw [here,recordRepair_recording_iff _ _ _ _ _ _ (by simp)]
    simp

/-- A repair is recorded after every restart whose process is noted down and whose trace can be cut. -/
theorem resurrect_records_iff :
    Records (resurrect host keypair timestamp around crashReport plan) ↔
      ∀ pid, Restarts around plan pid → around.writePidFile pid = .ok () ∧ Cuttable 500 crashReport.stackTrace := by
  constructor
  · intro records pid restarts
    refine (resurrect_recording_iff host keypair timestamp around crashReport plan restarts).mp (records ⟨pid, ?_⟩)
    cases write : around.writePidFile pid with
    | error e =>
      obtain ⟨action, stages⟩ := resurrect_of_unwritten host keypair timestamp around crashReport plan restarts write
      simp [stages]
    | ok _ =>
      obtain ⟨action, here⟩ := resurrect_of_written host keypair timestamp around crashReport plan restarts write
      rw [here,recordRepair_stages]
      simp
  · rintro enough ⟨pid, restarted⟩
    have restarts := restarts_of_restarted _ _ _ _ _ _ restarted
    exact (resurrect_recording_iff host keypair timestamp around crashReport plan restarts).mpr (enough pid restarts)

end

end Zaion.Watchdog
