import Zaion.Lib.Size

/-! Cutting a text at a number of bytes, which an index inside a character does not allow. -/
namespace Zaion.Lib

theorem firstBytes_iff {n : Nat} {text part : List Char} :
    firstBytes n text = some part ↔ part <+: text ∧ (part.map Char.utf8Size).sum = n := by
  induction text generalizing n part with
  | nil =>
    cases n with
    | zero =>
      simp only [firstBytes,List.prefix_nil,Option.some.injEq]
      constructor
      · rintro rfl
        exact ⟨rfl, rfl⟩
      · exact fun nothing => nothing.1.symm
    | succ n =>
      simp only [firstBytes,List.prefix_nil]
      constructor
      · intro none_
        cases none_
      · rintro ⟨rfl, size⟩
        cases size
  | cons c rest ih =>
    have positive := c.utf8Size_pos
    cases n with
    | zero =>
      rw [firstBytes]
      constructor
      · intro nothing
        cases nothing
        exact ⟨List.nil_prefix, rfl⟩
      · rintro ⟨start, size⟩
        cases part with
        | nil => rfl
        | cons d part =>
          have first := d.utf8Size_pos
          rw [List.map_cons,List.sum_cons] at size
          omega
    | succ n =>
      rw [firstBytes]
      · constructor
        · intro cut
          split at cut
          · next fits =>
            obtain ⟨inner, here, rfl⟩ := Option.map_eq_some_iff.mp cut
            obtain ⟨start, size⟩ := ih.mp here
            refine ⟨(List.prefix_cons_inj c).mpr start, ?_⟩
            rw [List.map_cons,List.sum_cons,size]
            omega
          · cases cut
        · rintro ⟨start, size⟩
          cases part with
          | nil => cases size
          | cons d part =>
            obtain ⟨rfl, inner⟩ := List.cons_prefix_cons.mp start
            rw [List.map_cons,List.sum_cons] at size
            rw [if_pos (by omega),ih.mpr ⟨inner, by omega⟩]
            rfl
      · exact Nat.succ_ne_zero n

/-- What comes behind a text that is cut does not matter. -/
theorem firstBytes_append {limit : Nat} {text more : String} (long : limit < text.utf8ByteSize) :
    firstBytes limit (text ++ more).toList = firstBytes limit text.toList := by
  have start : text.toList <+: (text ++ more).toList := by
    rw [String.toList_append]
    exact List.prefix_append _ _
  apply Option.ext
  intro part
  rw [firstBytes_iff,firstBytes_iff]
  constructor
  · rintro ⟨front, size⟩
    refine ⟨?_, size⟩
    rcases List.prefix_or_prefix_of_prefix front start with inside | ⟨rest, beyond⟩
    · exact inside
    · have sizes := congrArg (fun chars : List Char => (chars.map Char.utf8Size).sum) beyond
      simp only [List.map_append,List.sum_append,size] at sizes
      rw [utf8ByteSize_eq] at long
      omega
  · exact fun inside => ⟨inside.1.trans start, inside.2⟩

/-- A part of a text cut at the limit: from its front, within the limit, and all of a text that fits. -/
structure Part (limit : Nat) (text kept : String) : Prop where
  start : kept.toList <+: text.toList
  size : kept.utf8ByteSize ≤ limit
  whole : text.utf8ByteSize ≤ limit → kept = text

/-- The text fits, or the limit falls between two of its characters. -/
def Cuttable (limit : Nat) (text : String) : Prop :=
  text.utf8ByteSize ≤ limit ∨ ∃ before after : String, text = before ++ after ∧ before.utf8ByteSize = limit

/-- A part is kept, and a note put behind it where there was more. -/
def Truncated (result : Option String) (limit : Nat) (text note : String) : Prop :=
  ∃ kept, Part limit text kept ∧ result = some (if text.utf8ByteSize ≤ limit then kept else kept ++ note)

section

variable {limit : Nat} {text : String}

theorem part_self (fits : text.utf8ByteSize ≤ limit) : Part limit text text := ⟨List.prefix_rfl, fits, fun _ => rfl⟩

theorem size_of_cut {kept : List Char} (cut : firstBytes limit text.toList = some kept) :
    (String.ofList kept).utf8ByteSize = limit := by
  rw [utf8ByteSize_ofList]
  exact (firstBytes_iff.mp cut).2

/-- Anything kept of a cut is a part of a text that does not fit. -/
theorem part_of_cut {cut kept : List Char} (more : limit < text.utf8ByteSize) (here : firstBytes limit text.toList = some cut)
    (start : kept <+: cut) : Part limit text (String.ofList kept) where
  start := by
    rw [String.toList_ofList]
    exact start.trans (firstBytes_iff.mp here).1
  size := by
    have smaller : (String.ofList kept).utf8ByteSize ≤ (String.ofList cut).utf8ByteSize :=
      utf8ByteSize_mono (by simpa using start.sublist)
    rwa [size_of_cut here] at smaller
  whole fits := by omega

theorem firstBytes_isSome_iff : (∃ kept, firstBytes limit text.toList = some kept) ↔
    ∃ before after : String, text = before ++ after ∧ before.utf8ByteSize = limit := by
  constructor
  · rintro ⟨kept, cut⟩
    obtain ⟨⟨rest, split⟩, -⟩ := firstBytes_iff.mp cut
    refine ⟨String.ofList kept, String.ofList rest, ?_, size_of_cut cut⟩
    rw [← String.ofList_append,split,String.ofList_toList]
  · rintro ⟨before, after, rfl, size⟩
    refine ⟨before.toList, firstBytes_iff.mpr ⟨?_, ?_⟩⟩
    · rw [String.toList_append]
      exact List.prefix_append _ _
    · rwa [← utf8ByteSize_eq]

/-- A truncation that keeps a text that fits, and else a part of what comes before the limit. -/
theorem truncated_iff {result : Option String} {note : String} (fits : text.utf8ByteSize ≤ limit → result = some text)
    (cuts : limit < text.utf8ByteSize → ∃ keep : List Char → List Char, (∀ cut, keep cut <+: cut) ∧
      result = (firstBytes limit text.toList).map fun cut => String.ofList (keep cut) ++ note) :
    Truncated result limit text note ↔ Cuttable limit text := by
  by_cases small : text.utf8ByteSize ≤ limit
  · constructor
    · exact fun _ => .inl small
    · intro _
      refine ⟨text, part_self small, ?_⟩
      rw [fits small,if_pos small]
  · have more : limit < text.utf8ByteSize := Nat.lt_of_not_le small
    obtain ⟨keep, front, result_⟩ := cuts more
    constructor
    · rintro ⟨kept, -, returned⟩
      rw [result_] at returned
      obtain ⟨cut, here, -⟩ := Option.map_eq_some_iff.mp returned
      exact .inr (firstBytes_isSome_iff.mp ⟨cut, here⟩)
    · intro cuttable
      obtain ⟨cut, here⟩ := firstBytes_isSome_iff.mpr (cuttable.resolve_left small)
      refine ⟨String.ofList (keep cut), part_of_cut more here (front cut), ?_⟩
      rw [result_,here,if_neg small]
      rfl

end

end Zaion.Lib
