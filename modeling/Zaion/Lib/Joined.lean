import Mathlib.Data.Set.Defs

/-! Lists joined with a separator and cut at it. -/
namespace Zaion.Lib

section

variable {α : Type} [DecidableEq α] {sep : α}

/-- A list is known from its pieces. -/
theorem splitOn_injective (sep : α) : Function.Injective (List.splitOn sep) := by
  intro a b same
  have joined := congrArg (List.intercalate [sep]) same
  rwa [List.intercalate_splitOn,List.intercalate_splitOn] at joined

theorem splitOn_intercalate_flatMap {parts : List (List α)} (some_ : parts ≠ []) :
    ([sep].intercalate parts).splitOn sep = parts.flatMap (List.splitOn sep) := by
  induction parts with
  | nil => exact absurd rfl some_
  | cons part rest ih =>
    cases rest with
    | nil => simp
    | cons next rest =>
      have later := ih (List.cons_ne_nil _ _)
      have cut := List.splitOn_append_cons_self part ([sep].intercalate (next :: rest)) (a := sep)
      rw [List.intercalate_cons_cons,List.append_assoc,List.singleton_append,cut,later]
      simp only [List.flatMap_cons]

/-- Two joins are equal just when their parts have the same pieces. -/
theorem intercalate_eq_iff {xs ys : List (List α)} (some_x : xs ≠ []) (some_y : ys ≠ []) :
    [sep].intercalate xs = [sep].intercalate ys ↔ xs.flatMap (List.splitOn sep) = ys.flatMap (List.splitOn sep) := by
  rw [← splitOn_intercalate_flatMap some_x,← splitOn_intercalate_flatMap some_y]
  exact (splitOn_injective sep).eq_iff.symm

end

theorem intercalate_append {α : Type} {sep : List α} {xs ys : List (List α)} (some_x : xs ≠ []) (some_y : ys ≠ []) :
    sep.intercalate (xs ++ ys) = sep.intercalate xs ++ sep ++ sep.intercalate ys := by
  induction xs with
  | nil => exact absurd rfl some_x
  | cons x xs ih =>
    cases xs with
    | nil => simp [List.intercalate_cons_of_ne_nil some_y]
    | cons x' xs =>
      rw [List.cons_append,List.cons_append,List.intercalate_cons_cons,List.intercalate_cons_cons,← List.cons_append,
        ih (List.cons_ne_nil _ _)]
      simp only [List.append_assoc]

/-! Records: fields joined with a separator, and what a record says of its fields. -/

section

variable {α : Type} [DecidableEq α] {sep : α}

theorem splitOn_length_pos (sep : α) (field : List α) : 1 ≤ (field.splitOn sep).length :=
  List.length_pos_iff.mpr (List.splitOn_ne_nil sep field)

theorem notMem_of_one_piece {field : List α} (one : (field.splitOn sep).length = 1) : sep ∉ field := by
  intro inside
  obtain ⟨before, after, rfl⟩ := List.append_of_mem inside
  rw [List.splitOn_append_cons_self,List.length_append] at one
  have first := splitOn_length_pos sep before
  have last := splitOn_length_pos sep after
  omega

theorem pieces_of_plain {fields : List (List α)} (plain : ∀ f ∈ fields, sep ∉ f) :
    fields.flatMap (List.splitOn sep) = fields := by
  induction fields with
  | nil => rfl
  | cons f fields ih =>
    rw [List.flatMap_cons,List.splitOn_eq_singleton (plain f List.mem_cons_self),
      ih (fun g member => plain g (List.mem_cons_of_mem _ member)),List.singleton_append]

theorem length_le_pieces (sep : α) (fields : List (List α)) : fields.length ≤ (fields.flatMap (List.splitOn sep)).length := by
  induction fields with
  | nil => exact Nat.le_refl _
  | cons f fields ih =>
    have piece := splitOn_length_pos sep f
    rw [List.flatMap_cons,List.length_append,List.length_cons]
    omega

/-- As many pieces as fields: each field is one. -/
theorem plain_of_pieces {fields : List (List α)} (few : (fields.flatMap (List.splitOn sep)).length = fields.length) :
    ∀ f ∈ fields, sep ∉ f := by
  induction fields with
  | nil => simp
  | cons f fields ih =>
    have piece := splitOn_length_pos sep f
    have rest := length_le_pieces sep fields
    rw [List.flatMap_cons,List.length_append,List.length_cons] at few
    intro g member
    rcases List.mem_cons.mp member with rfl | later
    · have one : (g.splitOn sep).length = 1 := by omega
      exact notMem_of_one_piece one
    · exact ih (by omega) g later

/-- Fields joined with a separator: some of any kind, a word, and the rest. -/
def joinedRecord (sep : α) (front : List (List α)) (word tail : List α) : List α :=
  [sep].intercalate (front ++ [word, tail])

omit [DecidableEq α] in
theorem record_eq {front : List (List α)} (some_ : front ≠ []) (word tail : List α) :
    joinedRecord sep front word tail = [sep].intercalate front ++ sep :: (word ++ sep :: tail) := by
  rw [joinedRecord,intercalate_append some_ (List.cons_ne_nil _ _)]
  simp

theorem record_pieces {front : List (List α)} {word tail : List α} (plain : sep ∉ word) :
    (front ++ [word, tail]).flatMap (List.splitOn sep) =
      front.flatMap (List.splitOn sep) ++ word :: tail.splitOn sep := by
  simp [List.flatMap_append,List.splitOn_eq_singleton plain]

/-- A tail that begins with pieces can be cut behind any of them but the last. -/
theorem cut_of_pieces {tail word after : List α} {before : List (List α)}
    (pieces : tail.splitOn sep = before ++ word :: after.splitOn sep) :
    ∃ front, sep :: tail = front ++ sep :: (word ++ sep :: after) := by
  have whole : tail = [sep].intercalate (before ++ word :: after.splitOn sep) := by
    rw [← pieces,List.intercalate_splitOn]
  have rest : [sep].intercalate (word :: after.splitOn sep) = word ++ sep :: after := by
    rw [List.intercalate_cons_of_ne_nil (List.splitOn_ne_nil sep after),List.intercalate_splitOn]
    simp
  cases before with
  | nil => exact ⟨[], by rw [whole,List.nil_append,rest,List.nil_append]⟩
  | cons first before =>
    refine ⟨sep :: [sep].intercalate (first :: before), ?_⟩
    rw [whole,intercalate_append (List.cons_ne_nil _ _) (List.cons_ne_nil _ _),rest]
    simp

/-- The record of fields without the separator, whose tail holds no word before its last piece, is
the record of nothing else. -/
theorem record_fixed {words : Set (List α)} {front front' : List (List α)} {word word' tail tail' : List α}
    (known : ∀ w ∈ words, sep ∉ w) (inside : word ∈ words) (inside' : word' ∈ words)
    (plain : ∀ f ∈ front, sep ∉ f) (last : ∀ w ∈ words, ∀ before after, sep :: tail ≠ before ++ sep :: (w ++ sep :: after))
    (size : front'.length = front.length) (same : joinedRecord sep front' word' tail' = joinedRecord sep front word tail) :
    front' = front ∧ word' = word ∧ tail' = tail := by
  have pieces : front'.flatMap (List.splitOn sep) ++ word' :: tail'.splitOn sep = front ++ word :: tail.splitOn sep := by
    have cut := (intercalate_eq_iff (by simp) (by simp)).mp same
    rwa [record_pieces (known _ inside'),record_pieces (known _ inside),pieces_of_plain plain] at cut
  have long := length_le_pieces sep front'
  rcases List.append_eq_append_iff.mp pieces with ⟨between, head, rest⟩ | ⟨between, head, rest⟩
  all_goals
    have sizes := congrArg List.length head
    rw [List.length_append] at sizes
  · have none_ : between = [] := List.length_eq_zero_iff.mp (by omega)
    subst none_
    rw [List.append_nil] at head
    have few : (front'.flatMap (List.splitOn sep)).length = front'.length := by rw [← head,size]
    have alone := pieces_of_plain (plain_of_pieces few)
    obtain ⟨rfl, tails⟩ := List.cons.inj rest
    exact ⟨alone.symm.trans head.symm, rfl, splitOn_injective sep tails⟩
  · cases between with
    | nil =>
      rw [List.append_nil] at head
      have few : (front'.flatMap (List.splitOn sep)).length = front'.length := by rw [head,size]
      have alone := pieces_of_plain (plain_of_pieces few)
      obtain ⟨rfl, tails⟩ := List.cons.inj rest
      exact ⟨alone.symm.trans head, rfl, (splitOn_injective sep tails).symm⟩
    | cons first between =>
      obtain ⟨_, tails⟩ := List.cons.inj rest
      obtain ⟨before, cut⟩ := cut_of_pieces tails
      exact absurd cut (last word' inside' before tail')

omit [DecidableEq α] in
/-- Two fields next to each other are joined like the one that has both. -/
theorem intercalate_pair (before after : List (List α)) (x y : List α) :
    [sep].intercalate (before ++ x :: y :: after) = [sep].intercalate (before ++ (x ++ sep :: y) :: after) := by
  have base : [sep].intercalate (x :: y :: after) = [sep].intercalate ((x ++ sep :: y) :: after) := by
    cases after <;> simp [List.intercalate_cons_cons]
  cases before with
  | nil => exact base
  | cons first before =>
    rw [intercalate_append (List.cons_ne_nil _ _) (List.cons_ne_nil _ _),
      intercalate_append (List.cons_ne_nil _ _) (List.cons_ne_nil _ _),base]

omit [DecidableEq α] in
theorem intercalate_concat (before : List (List α)) (x more : List α) :
    [sep].intercalate (before ++ [x ++ more]) = [sep].intercalate (before ++ [x]) ++ more := by
  cases before with
  | nil => simp
  | cons first before =>
    rw [intercalate_append (List.cons_ne_nil _ _) (List.cons_ne_nil _ _),
      intercalate_append (List.cons_ne_nil _ _) (List.cons_ne_nil _ _)]
    simp

omit [DecidableEq α] in
theorem record_pair {before after : List (List α)} {x y x' y' : List α} (joined : x ++ sep :: y = x' ++ sep :: y')
    (word tail : List α) :
    joinedRecord sep (before ++ x :: y :: after) word tail = joinedRecord sep (before ++ x' :: y' :: after) word tail := by
  simp only [joinedRecord,List.append_assoc,List.cons_append,intercalate_pair,joined]

omit [DecidableEq α] in
/-- A field with the separator can give a part of itself to its neighbour. -/
theorem record_shift {front : List (List α)} (two : 2 ≤ front.length) {field : List α} (member : field ∈ front)
    (inside : sep ∈ field) : ∃ front', front'.length = front.length ∧ front' ≠ front ∧
      ∀ word tail, joinedRecord sep front' word tail = joinedRecord sep front word tail := by
  obtain ⟨before, after, rfl⟩ := List.append_of_mem member
  obtain ⟨u, v, rfl⟩ := List.append_of_mem inside
  cases after with
  | cons next after =>
    refine ⟨before ++ u :: (v ++ sep :: next) :: after, by simp, by simp, record_pair (by simp)⟩
  | nil =>
    rcases List.eq_nil_or_concat before with rfl | ⟨init, previous, rfl⟩
    · simp at two
    · refine ⟨init ++ (previous ++ sep :: u) :: v :: [], by simp, by simp, ?_⟩
      intro word tail
      rw [List.concat_eq_append,List.append_assoc]
      exact record_pair (by simp) word tail

omit [DecidableEq α] in
/-- A tail that holds a word before its last piece can give what is before it to the last field. -/
theorem record_extend {front : List (List α)} (some_ : front ≠ []) {word tail w before after : List α}
    (cut : sep :: tail = before ++ sep :: (w ++ sep :: after)) : ∃ front', front'.length = front.length ∧ front' ≠ front ∧
      joinedRecord sep front' w after = joinedRecord sep front word tail := by
  obtain ⟨init, last, rfl⟩ := (List.eq_nil_or_concat front).resolve_left some_
  rw [List.concat_eq_append]
  refine ⟨init ++ [last ++ (sep :: word ++ before)], by simp, by simp, ?_⟩
  rw [record_eq (by simp),record_eq (by simp),intercalate_concat,cut]
  simp

/-- A record is the record of nothing else exactly when no field has the separator and the tail
holds no word before its last piece. -/
theorem record_fixed_iff {words : Set (List α)} {front : List (List α)} {word : List α} (tail : List α)
    (known : ∀ w ∈ words, sep ∉ w) (two : 2 ≤ front.length) (inside : word ∈ words) :
    (∀ front' word' tail', front'.length = front.length → word' ∈ words →
      joinedRecord sep front' word' tail' = joinedRecord sep front word tail → front' = front ∧ word' = word ∧ tail' = tail) ↔
    (∀ f ∈ front, sep ∉ f) ∧ ∀ w ∈ words, ∀ before after, sep :: tail ≠ before ++ sep :: (w ++ sep :: after) := by
  constructor
  · intro fixed
    constructor
    · intro f member has
      obtain ⟨front', size, other, same⟩ := record_shift two member has
      exact other (fixed front' word tail size inside (same word tail)).1
    · intro w listed before after cut
      have some_ : front ≠ [] := by
        rintro rfl
        simp at two
      obtain ⟨front', size, other, same⟩ := record_extend some_ cut
      exact other (fixed front' w after size listed same).1
  · rintro ⟨plain, last⟩ front' word' tail' size listed same
    exact record_fixed known inside listed plain last size same

end

end Zaion.Lib
