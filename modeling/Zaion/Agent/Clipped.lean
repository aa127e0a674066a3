import Zaion.Lib.Cut
import Zaion.Lib.Find

/-! File and web content clipped for a message: cut at the limit, then at the last line that is
there in full. -/
namespace Zaion.Agent

open Lib

def clipNote (maxBytes : Nat) : String := "\n… [clipped at " ++ toString maxBytes ++ " bytes]"

/-- `&clipped[..end]`, where `end` is the last line break. -/
def lastLine (clipped : List Char) : List Char :=
  match rsplitOnce '\n' clipped with
  | some (before, _) => before
  | none => clipped

/-- `clip_content`; `none` where the slice panics. -/
def clipContent (s : String) (maxBytes : Nat) : Option String :=
  if s.utf8ByteSize ≤ maxBytes then some s
  else (firstBytes maxBytes s.toList).map fun clipped => String.ofList (lastLine clipped) ++ clipNote maxBytes

theorem lastLine_prefix (clipped : List Char) : lastLine clipped <+: clipped := by
  unfold lastLine
  split
  · next before _ found =>
    rw [rsplitOnce_split found]
    exact List.prefix_append _ _
  · exact List.prefix_rfl

theorem clipContent_truncated_iff (s : String) (maxBytes : Nat) :
    Truncated (clipContent s maxBytes) maxBytes s (clipNote maxBytes) ↔ Cuttable maxBytes s := by
  apply truncated_iff
  · exact fun fits => if_pos fits
  · exact fun more => ⟨lastLine, lastLine_prefix, if_neg (Nat.not_le_of_lt more)⟩

end Zaion.Agent
