import Zaion.Lib.Text

/-! The words of a text, what white space keeps apart, and a text with a change made to each. -/
namespace Zaion.Lib

/-- `split_whitespace`, with the part of a word read so far. -/
def wordsFrom (word : List Char) : List Char → List (List Char)
  | [] => if word = [] then [] else [word]
  | c :: rest =>
    if isWhiteSpace c then (if word = [] then wordsFrom [] rest else word :: wordsFrom [] rest)
    else wordsFrom (word ++ [c]) rest

/-- A text with a change made to each word. -/
def mapWords (change : List Char → List Char) (word : List Char) : List Char → List Char
  | [] => change word
  | c :: rest =>
    if isWhiteSpace c then change word ++ c :: mapWords change [] rest else mapWords change (word ++ [c]) rest

theorem wordsFrom_plain {word text : List Char} (plain : ∀ c ∈ word, isWhiteSpace c = false) :
    ∀ w ∈ wordsFrom word text, ∀ c ∈ w, isWhiteSpace c = false := by
  induction text generalizing word with
  | nil =>
    intro w member
    rw [wordsFrom] at member
    split at member
    · simp at member
    · obtain rfl := List.mem_singleton.mp member
      exact plain
  | cons c rest ih =>
    rw [wordsFrom]
    split
    · split
      · exact ih (by simp)
      · intro w member
        rcases List.mem_cons.mp member with rfl | later
        · exact plain
        · exact ih (by simp) w later
    · next visible =>
      apply ih
      intro d member
      rcases List.mem_append.mp member with old | new
      · exact plain d old
      · obtain rfl := List.mem_singleton.mp new
        exact Bool.eq_false_iff.mpr visible

theorem mapWords_congr {f g : List Char → List Char} {word text : List Char} (blank : f [] = g [])
    (same : ∀ w ∈ wordsFrom word text, f w = g w) : mapWords f word text = mapWords g word text := by
  induction text generalizing word with
  | nil =>
    rw [wordsFrom] at same
    rw [mapWords,mapWords]
    split at same
    · next empty => rw [empty,blank]
    · exact same word (List.mem_singleton_self word)
  | cons c rest ih =>
    rw [wordsFrom] at same
    rw [mapWords,mapWords]
    split at same
    · next white =>
      rw [if_pos white,if_pos white]
      split at same
      · next empty => rw [empty,blank,ih same]
      · rw [same word List.mem_cons_self,ih (fun w member => same w (List.mem_cons_of_mem _ member))]
    · next visible => rw [if_neg visible,if_neg visible,ih same]

theorem mapWords_id (word text : List Char) : mapWords id word text = word ++ text := by
  induction text generalizing word with
  | nil => simp [mapWords]
  | cons c rest ih =>
    rw [mapWords]
    split
    · rw [ih,id,List.nil_append]
    · rw [ih,List.append_assoc,List.singleton_append]

/-- A word's change stands in the text. -/
theorem infix_mapWords {f : List Char → List Char} {word text w : List Char} (member : w ∈ wordsFrom word text) :
    f w <:+: mapWords f word text := by
  induction text generalizing word with
  | nil =>
    rw [wordsFrom] at member
    split at member
    · simp at member
    · obtain rfl := List.mem_singleton.mp member
      exact List.infix_rfl
  | cons c rest ih =>
    rw [wordsFrom] at member
    rw [mapWords]
    split at member
    · next white =>
      rw [if_pos white]
      have later (inside : w ∈ wordsFrom [] rest) : f w <:+: f word ++ c :: mapWords f [] rest :=
        ((ih inside).trans (List.suffix_cons c _).isInfix).trans (List.suffix_append (f word) _).isInfix
      split at member
      · exact later member
      · rcases List.mem_cons.mp member with rfl | inside
        · exact (List.prefix_append (f w) _).isInfix
        · exact later inside
    · next visible =>
      rw [if_neg visible]
      exact ih member

theorem length_mapWords_le {f g : List Char → List Char} {word text : List Char} (blank : f [] = g [])
    (below : ∀ w ∈ wordsFrom word text, (f w).length ≤ (g w).length) :
    (mapWords f word text).length ≤ (mapWords g word text).length := by
  induction text generalizing word with
  | nil =>
    rw [wordsFrom] at below
    rw [mapWords,mapWords]
    split at below
    · next empty => rw [empty,blank]
    · exact below word (List.mem_singleton_self word)
  | cons c rest ih =>
    rw [wordsFrom] at below
    rw [mapWords,mapWords]
    split at below
    · next white =>
      rw [if_pos white,if_pos white]
      simp only [List.length_append,List.length_cons]
      split at below
      · next empty =>
        have later := ih below
        rw [empty,blank]
        omega
      · have here := below word List.mem_cons_self
        have later := ih (fun w member => below w (List.mem_cons_of_mem _ member))
        omega
    · next visible =>
      rw [if_neg visible,if_neg visible]
      exact ih below

theorem length_mapWords_lt {f g : List Char → List Char} {word text w : List Char} (blank : f [] = g [])
    (below : ∀ w ∈ wordsFrom word text, (f w).length ≤ (g w).length) (member : w ∈ wordsFrom word text)
    (less : (f w).length < (g w).length) : (mapWords f word text).length < (mapWords g word text).length := by
  induction text generalizing word with
  | nil =>
    rw [wordsFrom] at member
    rw [mapWords,mapWords]
    split at member
    · simp at member
    · obtain rfl := List.mem_singleton.mp member
      exact less
  | cons c rest ih =>
    rw [wordsFrom] at member below
    rw [mapWords,mapWords]
    split at member
    · next white =>
      rw [if_pos white] at below
      rw [if_pos white,if_pos white]
      simp only [List.length_append,List.length_cons]
      split at member
      · next empty =>
        rw [if_pos empty] at below
        have later := ih below member
        rw [empty,blank]
        omega
      · next some_ =>
        rw [if_neg some_] at below
        have here := below word List.mem_cons_self
        have rest := fun w member => below w (List.mem_cons_of_mem _ member)
        rcases List.mem_cons.mp member with rfl | inside
        · have later := length_mapWords_le blank rest
          omega
        · have later := ih rest inside
          omega
    · next visible =>
      rw [if_neg visible] at below
      rw [if_neg visible,if_neg visible]
      exact ih below member

end Zaion.Lib
