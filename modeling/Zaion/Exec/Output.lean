import Zaion.Lib.Cut

/-! The output of a child process, collected line by line up to a limit. A collector that panics
leaves the empty text. -/
namespace Zaion.Exec

open Lib

def defaultExecuteCodeMaxStderrBytes : Nat := 10000

def stdoutNote : String := "\n[OUTPUT TRUNCATED: exceeded max_stdout_bytes limit]"
def stderrNote : String := "\n[STDERR TRUNCATED]"

/-- What `read_line` gives, one line with its end after the other. -/
def readLines (line : List Char) : List Char → List (List Char)
  | [] => if line = [] then [] else [line]
  | c :: rest => if c = '\n' then (line ++ [c]) :: readLines [] rest else readLines (line ++ [c]) rest

/-- The loop of a collector; `none` where the truncation panics. -/
def collectLines (limit : Nat) (note : String) (output : String) : List (List Char) → Option String
  | [] => some output
  | line :: rest =>
    let output := output ++ String.ofList line
    if limit < output.utf8ByteSize then (firstBytes limit output.toList).map fun kept => String.ofList kept ++ note
    else collectLines limit note output rest

/-- What a collector thread returns of all a child wrote. -/
def collect (limit : Nat) (note : String) (written : String) : Option String :=
  collectLines limit note "" (readLines [] written.toList)

def collectStdout (maxStdoutBytes : Nat) (written : String) : Option String := collect maxStdoutBytes stdoutNote written

def collectStderr (written : String) : Option String := collect defaultExecuteCodeMaxStderrBytes stderrNote written

/-- `join().unwrap_or_default()`. -/
def joined (collected : Option String) : String := collected.getD ""

theorem readLines_flatten (line text : List Char) : (readLines line text).flatten = line ++ text := by
  induction text generalizing line with
  | nil =>
    rw [readLines]
    split
    · next empty => simp [empty]
    · simp
  | cons c rest ih =>
    rw [readLines]
    split
    · rw [List.flatten_cons,ih,List.append_assoc,List.singleton_append,List.nil_append]
    · rw [ih,List.append_assoc,List.singleton_append]

/-- Only how much there is in all decides. -/
theorem collectLines_eq {limit : Nat} {note output : String} (fits : output.utf8ByteSize ≤ limit) (lines : List (List Char)) :
    collectLines limit note output lines =
      if (output ++ String.ofList lines.flatten).utf8ByteSize ≤ limit then some (output ++ String.ofList lines.flatten)
      else (firstBytes limit (output ++ String.ofList lines.flatten).toList).map fun kept => String.ofList kept ++ note := by
  induction lines generalizing output with
  | nil =>
    rw [collectLines,List.flatten_nil,String.ofList_nil,String.append_empty,if_pos fits]
  | cons line rest ih =>
    have whole : output ++ String.ofList (line :: rest).flatten = output ++ String.ofList line ++ String.ofList rest.flatten := by
      rw [List.flatten_cons,String.ofList_append,String.append_assoc]
    rw [collectLines,whole]
    split
    · next more =>
      have size : ¬ (output ++ String.ofList line ++ String.ofList rest.flatten).utf8ByteSize ≤ limit := by
        rw [String.utf8ByteSize_append]
        omega
      rw [if_neg size,firstBytes_append more]
    · next less => exact ih (Nat.le_of_not_lt less)

theorem collect_eq (limit : Nat) (note written : String) : collect limit note written =
    if written.utf8ByteSize ≤ limit then some written
    else (firstBytes limit written.toList).map fun kept => String.ofList kept ++ note := by
  rw [collect,collectLines_eq (Nat.zero_le limit),readLines_flatten]
  simp

theorem collect_truncated_iff (limit : Nat) (note written : String) :
    Truncated (collect limit note written) limit written note ↔ Cuttable limit written := by
  rw [collect_eq]
  apply truncated_iff
  · exact fun fits => if_pos fits
  · exact fun more => ⟨id, fun _ => List.prefix_rfl, if_neg (Nat.not_le_of_lt more)⟩

end Zaion.Exec
