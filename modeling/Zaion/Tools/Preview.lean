import Zaion.Lib.Size
import Zaion.Tools.Lines

/-! The gate that an output of any length passes on its way to the model: the text itself while it is small, and
otherwise its first and last lines around a notice. -/
namespace Zaion.Tools

open Lib

def outputMaxLines : Nat := 400
def outputMaxBytes : Nat := 32768
def previewHeadLines : Nat := 200
def previewTailLines : Nat := 50

structure TruncatedOutput where
  text : String
  totalLines : Nat
  totalBytes : Nat
  truncated : Bool
  spillPath : Option String
  deriving DecidableEq

/-- What a spill finds: the directory for outputs, whether it could be made, the time since the epoch, the process and
whether the write went through. -/
structure SpillSite where
  toolOutput : Option String
  created : Bool
  stamp : Option Nat
  pid : Nat
  writes : Bool

def safeLabel (label : String) : String :=
  String.ofList (label.toList.map fun c => if c.isAlphanum then c else '_')

/-- `spill_output`: the file and what is in it. -/
def spillOutput (site : SpillSite) (label full : String) : Option (String × String) := do
  let base ← site.toolOutput
  guard (site.created = true)
  let stamp ← site.stamp
  guard (site.writes = true)
  some (base ++ "/" ++ safeLabel label ++ "-" ++ toString site.pid ++ "-" ++ toString stamp ++ ".txt", full)

def location : Option String → String
  | some path => "full output written to " ++ path
  | none => "full output unavailable (spill failed)"

/-- The line between the first and the last lines. -/
def elidedNotice (elided totalLines totalBytes : Nat) (spillPath : Option String) : String :=
  "\n… [" ++ toString elided ++ " lines elided · " ++ toString totalLines ++ " lines / " ++ toString totalBytes ++
    " bytes total · " ++ location spillPath ++ "] …\n\n"

/-- `truncate_output`. -/
def truncateOutput (site : SpillSite) (label output : String) : TruncatedOutput :=
  let totalBytes := output.utf8ByteSize
  let totalLines := (lines output).length
  if totalLines ≤ outputMaxLines ∧ totalBytes ≤ outputMaxBytes then ⟨output, totalLines, totalBytes, false, none⟩
  else
    let head := (lines output).take previewHeadLines
    let tailStart := (lines output).length - previewTailLines
    let tail := (lines output).drop (max tailStart previewHeadLines)
    let spillPath := (spillOutput site label output).map Prod.fst
    let elided := totalLines - (head.length + tail.length)
    ⟨joinLines head ++ "\n" ++ elidedNotice elided totalLines totalBytes spillPath ++ joinLines tail, totalLines, totalBytes, true,
      spillPath⟩

/-- The output is within both ceilings. -/
def Small (output : String) : Prop := (lines output).length ≤ outputMaxLines ∧ output.utf8ByteSize ≤ outputMaxBytes

/-- How many lines are shown at the start and at the end. -/
def headCount (n : Nat) : Nat := min previewHeadLines n
def tailCount (n : Nat) : Nat := min previewTailLines (n - previewHeadLines)

def headLines (all : List String) : List String := all.take (headCount all.length)
def tailLines (all : List String) : List String := all.drop (all.length - tailCount all.length)

/-- The first and the last lines of the output around the notice, no line twice, with the lines between them counted,
and no more than the ceiling of bytes beside the notice. -/
def Preview (output : String) (out : TruncatedOutput) : Prop :=
  let all := lines output
  ∃ elided, headCount all.length + elided + tailCount all.length = all.length ∧
    out.text = joinLines (headLines all) ++ "\n" ++ elidedNotice elided all.length output.utf8ByteSize out.spillPath ++
      joinLines (tailLines all) ∧
    out.text.utf8ByteSize ≤
      outputMaxBytes + (elidedNotice elided all.length output.utf8ByteSize out.spillPath).utf8ByteSize

/-- What the gate is to do. -/
structure Gated (output : String) (out : TruncatedOutput) : Prop where
  whole : Small output → out.text = output
  preview : ¬ Small output → Preview output out

/-- The bytes of the lines shown with a break after each, the last break aside where there are two parts. -/
def shownBytes (all : List String) : Nat :=
  ((headLines all ++ tailLines all).map fun line => line.utf8ByteSize + 1).sum -
    (if previewHeadLines < all.length then 1 else 0)

theorem lines_ne_nil_of_large {output : String} (large : ¬ Small output) : lines output ≠ [] := by
  apply lines_ne_nil
  rintro rfl
  exact large ⟨by decide, by decide⟩

section

variable (all : List String)

theorem headLines_eq : all.take previewHeadLines = headLines all := by
  rw [headLines,headCount,List.take_eq_take_iff]
  omega

theorem tailLines_eq : all.drop (max (all.length - previewTailLines) previewHeadLines) = tailLines all := by
  rw [tailLines,tailCount]
  by_cases more : previewHeadLines ≤ all.length
  · have same : max (all.length - previewTailLines) previewHeadLines =
        all.length - min previewTailLines (all.length - previewHeadLines) := by
      omega
    rw [same]
  · rw [List.drop_eq_nil_of_le (by omega),List.drop_eq_nil_of_le (by omega)]

theorem headLines_length : (headLines all).length = headCount all.length := by
  rw [headLines,headCount,List.length_take]
  omega

theorem tailLines_length : (tailLines all).length = tailCount all.length := by
  rw [tailLines,tailCount,List.length_drop]
  omega

theorem counts_le (n : Nat) : headCount n + tailCount n ≤ n := by
  unfold headCount tailCount
  omega

variable {all}

/-- The bytes of both parts joined, and one break between them. -/
theorem shownBytes_eq (some_ : all ≠ []) :
    (joinLines (headLines all)).utf8ByteSize + 1 + (joinLines (tailLines all)).utf8ByteSize = shownBytes all := by
  have positive : 0 < all.length := List.length_pos_of_ne_nil some_
  have inHead := headLines_length all
  have inTail := tailLines_length all
  have head : headLines all ≠ [] := by
    apply List.ne_nil_of_length_pos
    rw [inHead,headCount,previewHeadLines]
    omega
  have front := joined_sum head
  rw [shownBytes,List.map_append,List.sum_append,← front,joinLines,joinLines]
  by_cases more : previewHeadLines < all.length
  · have tail : tailLines all ≠ [] := by
      apply List.ne_nil_of_length_pos
      rw [inTail,tailCount]
      simp only [previewTailLines,previewHeadLines] at more ⊢
      omega
    have back := joined_sum tail
    rw [if_pos more,← back]
    omega
  · have none_ : tailLines all = [] := by
      apply List.eq_nil_of_length_eq_zero
      rw [inTail,tailCount]
      omega
    rw [if_neg more,none_]
    rfl

end

theorem truncateOutput_small (site : SpillSite) (label : String) {output : String} (small : Small output) :
    truncateOutput site label output = ⟨output, (lines output).length, output.utf8ByteSize, false, none⟩ :=
  if_pos small

theorem truncateOutput_large (site : SpillSite) (label : String) {output : String} (large : ¬ Small output) :
    truncateOutput site label output =
      let all := lines output
      let spillPath := (spillOutput site label output).map Prod.fst
      ⟨joinLines (headLines all) ++ "\n" ++ elidedNotice (all.length - (headCount all.length + tailCount all.length)) all.length
          output.utf8ByteSize spillPath ++ joinLines (tailLines all), all.length, output.utf8ByteSize, true, spillPath⟩ := by
  have taken := headLines_eq (lines output)
  have kept := tailLines_eq (lines output)
  have gate : ¬ ((lines output).length ≤ outputMaxLines ∧ output.utf8ByteSize ≤ outputMaxBytes) := large
  simp only [truncateOutput,if_neg gate,taken,kept,headLines_length,tailLines_length]

/-- The preview is complete exactly when the lines it shows are within the ceiling of bytes. -/
theorem preview_iff (site : SpillSite) (label : String) {output : String} (large : ¬ Small output) :
    Preview output (truncateOutput site label output) ↔ shownBytes (lines output) ≤ outputMaxBytes := by
  have fits := counts_le (lines output).length
  have bytes := shownBytes_eq (lines_ne_nil_of_large large)
  rw [truncateOutput_large site label large]
  simp only [Preview,String.utf8ByteSize_append]
  have break_ : "\n".utf8ByteSize = 1 := rfl
  constructor
  · rintro ⟨elided, counted, -, bounded⟩
    have same : (lines output).length - (headCount (lines output).length + tailCount (lines output).length) = elided := by
      omega
    rw [same,break_] at bounded
    omega
  · intro bounded
    refine ⟨_, ?_, rfl, ?_⟩
    · omega
    · rw [break_]
      omega

theorem gated_iff (site : SpillSite) (label output : String) :
    Gated output (truncateOutput site label output) ↔ Small output ∨ shownBytes (lines output) ≤ outputMaxBytes := by
  constructor
  · intro gated
    by_cases small : Small output
    · exact .inl small
    · exact .inr ((preview_iff site label small).mp (gated.preview small))
  · intro condition
    refine ⟨fun small => ?_, fun large => ?_⟩
    · rw [truncateOutput_small site label small]
    · exact (preview_iff site label large).mpr (condition.resolve_left large)

/-- A single line passes the gate only while it is small. -/
theorem single_line_iff (site : SpillSite) (label : String) {text : List Char} (some_ : text ≠ []) (one : '\n' ∉ text) :
    Gated (String.ofList text) (truncateOutput site label (String.ofList text)) ↔
      (String.ofList text).utf8ByteSize ≤ outputMaxBytes := by
  have shown : shownBytes [String.ofList text] = (String.ofList text).utf8ByteSize + 1 := by
    simp [shownBytes,headLines,tailLines,headCount,tailCount,previewHeadLines]
  rw [gated_iff,Small,lines_single some_ one,shown]
  have few : [String.ofList text].length ≤ outputMaxLines := by simp [outputMaxLines]
  omega

theorem repeated_iff (site : SpillSite) (label : String) (n : Nat) (c : Char) (plain : c.utf8Size = 1) (other : c ≠ '\n') :
    Gated (String.ofList (List.replicate (n + 1) c)) (truncateOutput site label (String.ofList (List.replicate (n + 1) c))) ↔
      n + 1 ≤ outputMaxBytes := by
  rw [single_line_iff site label (by simp) (by simp [other.symm]),utf8ByteSize_ofList,
    List.map_replicate,List.sum_replicate_nat,plain,Nat.mul_one]

/-- One line of 33 KiB is shown whole. -/
theorem long_line_overflows : ¬ Gated (String.ofList (List.replicate 33792 'x'))
    (truncateOutput ⟨none, false, none, 0, false⟩ "shell_exec_stdout" (String.ofList (List.replicate 33792 'x'))) := by
  intro gated
  exact absurd ((repeated_iff ⟨none, false, none, 0, false⟩ "shell_exec_stdout" 33791 'x' rfl (by decide)).mp gated)
    (by decide)

end Zaion.Tools
