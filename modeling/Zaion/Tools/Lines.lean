import Zaion.Lib.Breaks
import Zaion.Tools.Files

/-! The lines of a text: closed by line feeds, without the carriage return before one. -/
namespace Zaion.Tools

open Lib

/-- `[&str]::join("\n")`. -/
def joinLines (lines : List String) : String := "\n".intercalate lines

/-- A line without the carriage return before its end. -/
def stripCr (line : List Char) : List Char := if line.getLast? = some '\r' then line.dropLast else line

theorem joinLines_toList (all : List String) : (joinLines all).toList = ['\n'].intercalate (all.map String.toList) := by
  rw [joinLines,String.toList_intercalate]
  rfl

section

variable {front : List (List Char)} {last : List Char} {original : String}

theorem lines_closed (text : original.toList = closed '\n' front ++ last) (plain : ∀ line ∈ front, '\n' ∉ line)
    (plainLast : '\n' ∉ last) :
    (lines original).map String.toList = front.map stripCr ++ (if last = [] then [] else [last]) := by
  have pieces := splitOn_closed plain plainLast
  simp only [lines,text,pieces,List.dropLast_concat,List.getLast?_concat,Option.getD_some,List.map_map]
  simp [stripCr,Function.comp_def]

end

theorem lines_ne_nil {output : String} (some_ : output ≠ "") : lines output ≠ [] := by
  intro none_
  obtain ⟨front, last, text, plain, plainLast⟩ := exists_closed '\n' output.toList
  have all := lines_closed text plain plainLast
  rw [none_,List.map_nil] at all
  obtain ⟨noFront, noLast⟩ := List.append_eq_nil_iff.mp all.symm
  obtain rfl := List.map_eq_nil_iff.mp noFront
  by_cases empty : last = []
  · rw [empty] at text
    exact some_ (String.toList_inj.mp text)
  · rw [if_neg empty] at noLast
    cases noLast

/-- A text without a line feed is its one line. -/
theorem lines_single {text : List Char} (some_ : text ≠ []) (one : '\n' ∉ text) :
    lines (String.ofList text) = [String.ofList text] := by
  simp [lines,List.splitOn_eq_singleton one,some_]

end Zaion.Tools
