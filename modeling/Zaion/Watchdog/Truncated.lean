import Zaion.Agent.Clipped
import Zaion.Exec.Output
import Zaion.Sample
import Zaion.Watchdog.Resurrect

/-! Everywhere a text is truncated the limit is one of bytes, and each place panics on the same
texts: the longer ones with a character across the limit. -/
namespace Zaion.Watchdog

open Agent Exec Lib

theorem truncations_iff (host : Host) (keypair : Keypair) (timestamp : String) (around : Surroundings)
    (crashReport : CrashReport) (plan : HealPlan) (result : RepairResult) (newPid : Option Nat)
    (s stdout stderr : String) (maxBytes maxStdoutBytes : Nat) :
    (Truncated (clipContent s maxBytes) maxBytes s (clipNote maxBytes) ↔ Cuttable maxBytes s) ∧
    ((∃ entry, RepairEntry.new host keypair timestamp crashReport plan result newPid = some entry ∧
      Part 500 crashReport.stackTrace entry.crashSummary) ↔ Cuttable 500 crashReport.stackTrace) ∧
    (Described plan (applyFix around plan) ↔ (plan.fixType = .description → Cuttable 200 plan.content)) ∧
    (Truncated (collectStdout maxStdoutBytes stdout) maxStdoutBytes stdout stdoutNote ↔ Cuttable maxStdoutBytes stdout) ∧
    (Truncated (collectStderr stderr) defaultExecuteCodeMaxStderrBytes stderr stderrNote ↔
      Cuttable defaultExecuteCodeMaxStderrBytes stderr) ∧
    (Records (resurrect host keypair timestamp around crashReport plan) ↔
      ∀ pid, Restarts around plan pid → around.writePidFile pid = .ok () ∧ Cuttable 500 crashReport.stackTrace) :=
  ⟨clipContent_truncated_iff s maxBytes,
    RepairEntry.new_truncated_iff host keypair timestamp crashReport plan result newPid,
    applyFix_described_iff around plan,
    collect_truncated_iff maxStdoutBytes stdoutNote stdout,
    collect_truncated_iff defaultExecuteCodeMaxStderrBytes stderrNote stderr,
    resurrect_records_iff host keypair timestamp around crashReport plan⟩

/-- Every call succeeds. -/
def smoothSurroundings : Surroundings where
  overwriteFile := fun _ _ => .ok ()
  spawn := .ok 4242
  writePidFile := fun _ => .ok ()
  add := fun _ => .ok 1

/-- A text that ends with a character of two bytes. -/
def accented (n : Nat) : List Char := List.replicate n 'a' ++ ['é']

def accentedTrace : CrashReport where
  stackTrace := String.ofList (accented 499)

theorem firstBytes_accented (n : Nat) : firstBytes (n + 1) (accented n) = none := by
  induction n with
  | zero => rfl
  | succ n ih =>
    have size : 'a'.utf8Size = 1 := by decide
    rw [accented] at ih
    rw [accented,List.replicate_succ,List.cons_append,firstBytes,size,if_pos (by omega),Nat.add_sub_cancel,ih]
    · rfl
    · exact Nat.succ_ne_zero (n + 1)

theorem accented_uncuttable (n : Nat) : ¬ Cuttable (n + 1) (String.ofList (accented n)) := by
  rintro (fits | cut)
  · have sizes : 'a'.utf8Size = 1 ∧ 'é'.utf8Size = 2 := by decide
    rw [utf8ByteSize_ofList,accented] at fits
    simp [sizes] at fits
  · obtain ⟨kept, cut⟩ := firstBytes_isSome_iff.mpr cut
    rw [String.toList_ofList,firstBytes_accented] at cut
    cases cut

theorem accented_texts_panic :
    (clipContent "aé" 2 = none ∧ collectStdout 2 "aé" = none ∧ joined (collectStdout 2 "aé") = "") ∧
    (RepairEntry.new sampleHost ⟨[], []⟩ "2024-01-01T00:00:00+00:00" accentedTrace
        ⟨.fileContent, some "zaion.toml", "[core]"⟩ .success (some 4242) = none ∧
      Restarts smoothSurroundings ⟨.fileContent, some "zaion.toml", "[core]"⟩ 4242 ∧
      ¬ Records (resurrect sampleHost ⟨[], []⟩ "2024-01-01T00:00:00+00:00" smoothSurroundings accentedTrace
        ⟨.fileContent, some "zaion.toml", "[core]"⟩)) := by
  have restarts : Restarts smoothSurroundings ⟨.fileContent, some "zaion.toml", "[core]"⟩ 4242 :=
    ⟨rfl, ⟨"zaion.toml", rfl, rfl⟩, rfl⟩
  refine ⟨⟨by decide, by decide, by decide⟩, ?_, restarts, ?_⟩
  · rw [← Option.not_isSome_iff_eq_none,RepairEntry.new_isSome_iff]
    exact accented_uncuttable 499
  · rw [resurrect_records_iff]
    exact fun enough => accented_uncuttable 499 (enough 4242 restarts).2

end Zaion.Watchdog
