import Zaion.Lib.Size
import Zaion.Parsers.Formats
import Zaion.Sample

/-! The objects that are found in a text. The scan takes brace-balanced stretches from the left and
never looks inside one again, whether it was read or not. -/
namespace Zaion.Parsers

open Lib Provider

/-- The text of an object: braces at both ends, and read as an object. -/
def ObjectText (host : Host) (slice : List Char) : Prop :=
  slice.head? = some '\x7b' ∧ slice.getLast? = some '\x7d' ∧
    ∃ fields, host.ofText (String.ofList slice) = some (.obj fields)

/-- An object of the text. -/
def ObjectAt (host : Host) (text : List Char) (place : Nat) (slice : List Char) : Prop :=
  slice <+: text.drop place ∧ ObjectText host slice

/-- An object of the text that no larger one contains. -/
def MaximalAt (host : Host) (text : List Char) (place : Nat) (slice : List Char) : Prop :=
  ObjectAt host text place slice ∧ ∀ place' slice', ObjectAt host text place' slice' → place' ≤ place →
    place + slice.length ≤ place' + slice'.length → slice'.length ≤ slice.length

/-- The brace-balanced stretch that begins at a place. -/
def stretchAt (text : List Char) (place : Nat) : Option (List Char) :=
  if (text.drop place).head? = some '\x7b' then (Braces.start.candidate (text.drop place)).map Prod.fst else none

/-- Behind the stretch at a place, or behind its one character. -/
def nextPlace (text : List Char) (place : Nat) : Nat :=
  match stretchAt text place with
  | some slice => place + slice.length
  | none => place + 1

/-- Whole stretches and single characters lead from one place to the other. -/
def ClearFrom (text : List Char) (start place : Nat) : Prop := ∃ steps, (nextPlace text)^[steps] start = place

/-- The place is inside of no stretch, going from the left. -/
def Clear (text : List Char) (place : Nat) : Prop := ClearFrom text 0 place

/-- A brace that is never closed and whose scan ends at a depth of zero all the same, the depth having
wrapped around: the outer loop stays at it for ever. -/
def Hangs (text : List Char) (place : Nat) : Prop :=
  (text.drop place).head? = some '\x7b' ∧ stretchAt text place = none ∧ (Braces.start.after (text.drop place)).depth = 0

/-- What a search for the objects of a text should do: end, find objects of the text one behind the
other, and miss none that is not part of another. -/
structure Extracted (host : Host) (text : List Char) : Prop where
  ends : ∀ place, Clear text place → ¬ Hangs text place
  returned : extractJsonObjects host text = (extractWithPlaces host text).map Prod.snd
  inOrder : (extractWithPlaces host text).Pairwise fun a b => a.1.1 + a.1.2.length ≤ b.1.1
  objects : ∀ place slice v, ((place, slice), v) ∈ extractWithPlaces host text →
    ObjectAt host text place slice ∧ host.ofText (String.ofList slice) = some v
  complete : ∀ place slice, MaximalAt host text place slice → ∃ v, ((place, slice), v) ∈ extractWithPlaces host text

/-- What JSON's grammar says of a text that begins with a brace: it is an object, if anything, and the
object's last brace is the one that closes its first. -/
structure ReadsObjects (host : Host) : Prop where
  object : ∀ text v, text.head? = some '\x7b' → host.ofText (String.ofList text) = some v → ∃ fields, v = .obj fields
  closed : ∀ text, ObjectText host text → Braces.start.candidate text = some (text, [])

section

variable {host : Host} {text slice rest : List Char} {place start : Nat}

theorem stretchAt_cons {c : Char} (split : text.drop place = c :: rest) :
    stretchAt text place = if c = '\x7b' then (Braces.start.candidate (c :: rest)).map Prod.fst else none := by
  simp only [stretchAt,split,List.head?_cons,Option.some.injEq]

theorem stretchAt_eq_some (found : stretchAt text place = some slice) : (text.drop place).head? = some '\x7b' ∧
    ∃ rest, Braces.start.candidate (text.drop place) = some (slice, rest) := by
  unfold stretchAt at found
  split at found
  · next brace =>
    obtain ⟨⟨front, rest⟩, inner, rfl⟩ := Option.map_eq_some_iff.mp found
    exact ⟨brace, rest, inner⟩
  · cases found

theorem nextPlace_some (found : stretchAt text place = some slice) : nextPlace text place = place + slice.length := by
  rw [nextPlace,found]

theorem nextPlace_none (found : stretchAt text place = none) : nextPlace text place = place + 1 := by
  rw [nextPlace,found]

theorem lt_nextPlace (text : List Char) (place : Nat) : place < nextPlace text place := by
  cases found : stretchAt text place with
  | none =>
    rw [nextPlace_none found]
    exact Nat.lt_succ_self place
  | some slice =>
    obtain ⟨_, rest, inner⟩ := stretchAt_eq_some found
    have nonempty := List.length_pos_iff.mpr (Braces.candidate_ne inner)
    rw [nextPlace_some found]
    omega

theorem clearFrom_iff (text : List Char) (start place : Nat) :
    ClearFrom text start place ↔ place = start ∨ ClearFrom text (nextPlace text start) place := by
  constructor
  · rintro ⟨steps, reached⟩
    cases steps with
    | zero => exact .inl reached.symm
    | succ steps => exact .inr ⟨steps, reached⟩
  · rintro (rfl | ⟨steps, reached⟩)
    · exact ⟨0, rfl⟩
    · exact ⟨steps + 1, reached⟩

theorem ClearFrom.le (clear : ClearFrom text start place) : start ≤ place := by
  obtain ⟨steps, rfl⟩ := clear
  induction steps generalizing start with
  | zero => exact le_rfl
  | succ steps ih => exact (lt_nextPlace text start).le.trans ih

/-- The stretches the scan takes are those that begin at a clear place. -/
theorem mem_stretchesFrom {skip : Nat} (behind : text.drop place = rest) {p : Nat} :
    (p, slice) ∈ stretchesFrom skip place rest ↔ ClearFrom text (place + skip) p ∧ stretchAt text p = some slice := by
  induction rest generalizing skip place with
  | nil =>
    simp only [stretchesFrom,List.not_mem_nil,false_iff,not_and]
    intro clear found
    have beyond := clear.le
    have short := List.drop_eq_nil_iff.mp behind
    rw [stretchAt,List.drop_eq_nil_iff.mpr (by omega)] at found
    cases found
  | cons c rest ih =>
    have behind' : text.drop (place + 1) = rest := by rw [← List.drop_drop,behind,List.drop_one,List.tail_cons]
    cases skip with
    | succ skip => rw [stretchesFrom,ih behind',Nat.add_right_comm,Nat.add_assoc]
    | zero =>
      have at_ := stretchAt_cons behind
      -- A place that begins no stretch adds none.
      have none_ (found : stretchAt text place = none) : (p, slice) ∈ stretchesFrom 0 (place + 1) rest ↔
          ClearFrom text (place + 0) p ∧ stretchAt text p = some slice := by
        rw [ih behind',Nat.add_zero,Nat.add_zero place,clearFrom_iff text place p,nextPlace_none found]
        constructor
        · exact fun ⟨clear, here⟩ => ⟨.inr clear, here⟩
        · rintro ⟨rfl | clear, here⟩
          · rw [found] at here
            cases here
          · exact ⟨clear, here⟩
      rw [stretchesFrom]
      split
      · next brace =>
        rw [if_pos brace] at at_
        cases inner : Braces.start.candidate (c :: rest) with
        | none =>
          rw [inner] at at_
          exact none_ at_
        | some parts =>
          obtain ⟨front, tail⟩ := parts
          have at_ : stretchAt text place = some front := by rw [at_,inner,Option.map_some]
          have nonempty := List.length_pos_iff.mpr (Braces.candidate_ne inner)
          have on : place + 1 + (front.length - 1) = nextPlace text place := by
            rw [nextPlace_some at_]
            omega
          dsimp only
          rw [List.mem_cons,ih behind',on,Nat.add_zero,clearFrom_iff text place p]
          constructor
          · rintro (same | ⟨clear, here⟩)
            · cases same
              exact ⟨.inl rfl, at_⟩
            · exact ⟨.inr clear, here⟩
          · rintro ⟨rfl | clear, here⟩
            · rw [at_] at here
              cases here
              exact .inl rfl
            · exact .inr ⟨clear, here⟩
      · next other =>
        rw [if_neg other] at at_
        exact none_ at_

theorem mem_stretches {p : Nat} : (p, slice) ∈ stretches text ↔ Clear text p ∧ stretchAt text p = some slice :=
  mem_stretchesFrom List.drop_zero

theorem stretchesFrom_inOrder {skip : Nat} (behind : text.drop place = rest) :
    (stretchesFrom skip place rest).Pairwise fun a b => a.1 + a.2.length ≤ b.1 := by
  induction rest generalizing skip place with
  | nil => simp [stretchesFrom]
  | cons c rest ih =>
    have behind' : text.drop (place + 1) = rest := by rw [← List.drop_drop,behind,List.drop_one,List.tail_cons]
    cases skip with
    | succ skip => exact ih behind'
    | zero =>
      rw [stretchesFrom]
      split
      · cases inner : Braces.start.candidate (c :: rest) with
        | none => exact ih behind'
        | some parts =>
          obtain ⟨front, tail⟩ := parts
          have nonempty := List.length_pos_iff.mpr (Braces.candidate_ne inner)
          refine List.pairwise_cons.mpr ⟨?_, ih behind'⟩
          intro later member
          have beyond := ((mem_stretchesFrom behind').mp member).1.le
          dsimp only
          omega
      · exact ih behind'

theorem mem_extractWithPlaces {v : Json} : ((place, slice), v) ∈ extractWithPlaces host text ↔
    (Clear text place ∧ stretchAt text place = some slice) ∧ host.ofText (String.ofList slice) = some v := by
  rw [← mem_stretches]
  constructor
  · intro member
    obtain ⟨stretch, inside, made⟩ := List.mem_filterMap.mp member
    obtain ⟨_, read, same⟩ := Option.map_eq_some_iff.mp made
    cases same
    exact ⟨inside, read⟩
  · rintro ⟨inside, read⟩
    exact List.mem_filterMap.mpr ⟨(place, slice), inside, by rw [read]; rfl⟩

theorem extractWithPlaces_inOrder (host : Host) (text : List Char) :
    (extractWithPlaces host text).Pairwise fun a b => a.1.1 + a.1.2.length ≤ b.1.1 := by
  refine List.Pairwise.filterMap _ ?_ (stretchesFrom_inOrder List.drop_zero)
  intro a b before x first y second
  obtain ⟨_, _, rfl⟩ := Option.map_eq_some_iff.mp first
  obtain ⟨_, _, rfl⟩ := Option.map_eq_some_iff.mp second
  exact before

/-- The brace that closes a stretch is its last character. -/
theorem candidate_getLast {s : Braces} (found : s.candidate text = some (slice, rest)) : slice.getLast? = some '\x7d' := by
  induction text generalizing s slice with
  | nil => cases found
  | cons c tail ih =>
    rw [Braces.candidate] at found
    split at found
    · next closing =>
      cases found
      simp only [Braces.closes,Bool.and_eq_true,decide_eq_true_eq] at closing
      rw [closing.1.2]
      rfl
    · obtain ⟨⟨front, behind⟩, inner, same⟩ := Option.map_eq_some_iff.mp found
      cases same
      obtain ⟨d, more, rfl⟩ := List.exists_cons_of_ne_nil (Braces.candidate_ne inner)
      rw [List.getLast?_cons_cons]
      exact ih inner

theorem extractWithPlaces_objects (reads : ReadsObjects host) {v : Json}
    (member : ((place, slice), v) ∈ extractWithPlaces host text) :
    ObjectAt host text place slice ∧ host.ofText (String.ofList slice) = some v := by
  obtain ⟨⟨_, found⟩, read⟩ := mem_extractWithPlaces.mp member
  obtain ⟨brace, rest, inner⟩ := stretchAt_eq_some found
  have split := Braces.candidate_split inner
  have head : slice.head? = some '\x7b' := by
    obtain ⟨c, more, rfl⟩ := List.exists_cons_of_ne_nil (Braces.candidate_ne inner)
    rw [split] at brace
    exact brace
  obtain ⟨fields, rfl⟩ := reads.object slice v head read
  exact ⟨⟨⟨rest, split.symm⟩, head, candidate_getLast inner, fields, read⟩, read⟩

/-- The stretch at an object is the object. -/
theorem stretchAt_object (reads : ReadsObjects host) (object : ObjectAt host text place slice) :
    stretchAt text place = some slice := by
  obtain ⟨⟨rest, split⟩, is⟩ := object
  have head : (text.drop place).head? = some '\x7b' := by
    rw [← split,List.head?_append,is.1]
    rfl
  rw [stretchAt,if_pos head,← split,Braces.candidate_append (reads.closed slice is)]
  rfl

theorem found_iff_clear (reads : ReadsObjects host) (object : ObjectAt host text place slice) :
    (∃ v, ((place, slice), v) ∈ extractWithPlaces host text) ↔ Clear text place := by
  constructor
  · rintro ⟨v, member⟩
    exact (mem_extractWithPlaces.mp member).1.1
  · intro clear
    obtain ⟨fields, read⟩ := object.2.2.2
    exact ⟨.obj fields, mem_extractWithPlaces.mpr ⟨⟨clear, stretchAt_object reads object⟩, read⟩⟩

/-- Only a text of four thousand million characters is not come to the end of. -/
theorem Hangs.long (hangs : Hangs text place) : 2 ^ 32 ≤ text.length := by
  obtain ⟨brace, unclosed, depth⟩ := hangs
  obtain ⟨rest, behind⟩ := List.head?_eq_some_iff.mp brace
  have size := congrArg List.length behind
  rw [List.length_drop,List.length_cons] at size
  rw [stretchAt_cons behind,if_pos rfl,Option.map_eq_none_iff] at unclosed
  have open_ : (Braces.start.next '\x7b').candidate rest = none := Option.map_eq_none_iff.mp unclosed
  have one : (Braces.start.next '\x7b').level = 1 := by decide
  by_contra short
  have above := Braces.level_after open_ one.ge (by omega)
  rw [behind,Braces.after_cons] at depth
  rw [Braces.level,depth] at above
  exact absurd above (by decide)

/-- The objects of a text are found exactly when no object that is part of no other begins inside a
brace-balanced stretch, the stretches taken from the left, and no brace's scan ends at zero unclosed. -/
theorem extracted_iff (host : Host) (reads : ReadsObjects host) (text : List Char) : Extracted host text ↔
    (∀ place slice, MaximalAt host text place slice → Clear text place) ∧
      ∀ place, Clear text place → ¬ Hangs text place := by
  constructor
  · intro extracted
    refine ⟨?_, extracted.ends⟩
    intro place slice maximal
    exact (found_iff_clear reads maximal.1).mp (extracted.complete place slice maximal)
  · rintro ⟨clear, ends⟩
    exact {
      ends
      returned := rfl
      inOrder := extractWithPlaces_inOrder host text
      objects := fun _ _ _ => extractWithPlaces_objects reads
      complete := fun place slice maximal => (found_iff_clear reads maximal.1).mpr (clear place slice maximal)
    }

end

/-- Reads the empty object only. -/
def emptyObjects : Host :=
  { sampleHost with ofText := fun text => if trim text = "\x7b\x7d" then some (.obj []) else none }

theorem emptyObject_toList : "\x7b\x7d".toList = ['\x7b', '\x7d'] := by decide

theorem emptyObjects_ofText {text : String} {v : Json} (read : emptyObjects.ofText text = some v) :
    trim text = "\x7b\x7d" ∧ v = .obj [] := by
  simp only [emptyObjects] at read
  split at read
  · next braces => exact ⟨braces, (Option.some.inj read).symm⟩
  · cases read

theorem emptyObjects_reads : ReadsObjects emptyObjects where
  object := fun _ _ _ read => ⟨[], (emptyObjects_ofText read).2⟩
  closed := by
    rintro text ⟨head, last, fields, read⟩
    have braces := (emptyObjects_ofText read).1
    have opens : (String.ofList text).toList.head? = some '\x7b' := by
      rw [String.toList_ofList]
      exact head
    have ends : (String.ofList text).toList.getLast? = some '\x7d' := by
      rw [String.toList_ofList]
      exact last
    rw [trim_of_visible opens ends (by decide) (by decide)] at braces
    have same := congrArg String.toList braces
    rw [String.toList_ofList,emptyObject_toList] at same
    rw [same]
    decide

/-- An object with a word on either side of it. -/
def wordsText : List Char := "a \x7b\x7d b".toList

theorem words_brace {place : Nat} (brace : (wordsText.drop place).head? = some '\x7b') : place = 2 := by
  have bound : place < 6 := by
    by_contra beyond
    have length : wordsText.length = 6 := by decide
    rw [List.drop_eq_nil_iff.mpr (by omega)] at brace
    cases brace
  revert brace
  interval_cases place <;> decide

theorem words_extracted : ReadsObjects emptyObjects ∧ Extracted emptyObjects wordsText := by
  refine ⟨emptyObjects_reads, (extracted_iff emptyObjects emptyObjects_reads wordsText).mpr ⟨?_, ?_⟩⟩
  · rintro place slice ⟨⟨⟨rest, split⟩, head, _⟩, _⟩
    have brace : (wordsText.drop place).head? = some '\x7b' := by
      rw [← split,List.head?_append,head]
      rfl
    rw [words_brace brace]
    exact ⟨2, by decide +kernel⟩
  · rintro place _ ⟨brace, unclosed, _⟩
    rw [words_brace brace] at unclosed
    exact absurd unclosed (by decide +kernel)

/-- An object behind an unrelated brace. -/
def noteText : List Char := "\x7bnote \x7b\"a\":1\x7d\x7d".toList

def noteObject : List Char := "\x7b\"a\":1\x7d".toList

/-- The two longer slices between braces are not read. -/
theorem note_larger : ∀ place < 7, ∀ n < 15, 7 < n ∧ 13 ≤ place + n ∧ ((noteText.drop place).take n).head? = some '\x7b' ∧
    ((noteText.drop place).take n).getLast? = some '\x7d' →
      (sampleHost.ofText (String.ofList ((noteText.drop place).take n))).isNone = true := by
  decide +kernel

theorem noteObject_maximal : MaximalAt sampleHost noteText 6 noteObject := by
  refine ⟨⟨by decide, by decide, by decide, [("a", .num (.posInt 1))], by decide +kernel⟩, ?_⟩
  rintro place' slice' ⟨⟨rest, split⟩, head, last, fields, read⟩ before beyond
  have whole : slice' = (noteText.drop place').take slice'.length := by rw [← split,List.take_left]
  have short : slice'.length ≤ 14 := by
    have total := congrArg List.length split
    have length : noteText.length = 14 := by decide
    rw [List.length_append,List.length_drop,length] at total
    omega
  have length : noteObject.length = 7 := by decide
  rw [length] at beyond ⊢
  by_contra larger
  rw [whole] at head last read
  have unread := note_larger place' (by omega) slice'.length (by omega) ⟨by omega, by omega, head, last⟩
  rw [read] at unread
  cases unread

theorem note_missed : MaximalAt sampleHost noteText 6 noteObject ∧ extractWithPlaces sampleHost noteText = [] ∧
    ¬ Extracted sampleHost noteText := by
  have none_ : extractWithPlaces sampleHost noteText = [] := by decide +kernel
  refine ⟨noteObject_maximal, none_, ?_⟩
  intro extracted
  obtain ⟨v, member⟩ := extracted.complete 6 noteObject noteObject_maximal
  rw [none_] at member
  cases member

end Zaion.Parsers
