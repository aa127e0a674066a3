import Zaion.Lib.Filling
import Zaion.Lib.Size
import Zaion.Tools.Lines

/-! Long messages cut for a platform. The lines fill the chunks one after the other; inside of a code
block no chunk is closed, and a line that does not fit outside of one starts a new chunk, a closing
fence too. -/
namespace Zaion.Media

open Lib
open Tools (lines joinLines)

def trimStart (s : String) : String := String.ofList (s.toList.dropWhile isWhiteSpace)

def trimEnd (s : String) : String := String.ofList (s.toList.rdropWhile isWhiteSpace)

def isFence (line : String) : Bool := startsWithText (trimStart line) "```"

structure MessageChunker where
  chunks : List String
  current : String
  inCodeBlock : Bool

/-- `chunks.push(current.trim_end().to_string())`, if there is something. -/
def MessageChunker.flushed (s : MessageChunker) : List String :=
  if s.current ≠ "" then s.chunks ++ [trimEnd s.current] else s.chunks

/-- The loop of `chunk_message_for_platform`, for one line. -/
def MessageChunker.line (maxLen : Nat) (s : MessageChunker) (line : String) : MessageChunker :=
  let inCodeBlock := if isFence line then !s.inCodeBlock else s.inCodeBlock
  let lineWithNewline := line ++ "\n"
  if maxLen < s.current.utf8ByteSize + lineWithNewline.utf8ByteSize then
    if inCodeBlock then { s with current := s.current ++ lineWithNewline, inCodeBlock := inCodeBlock }
    else ⟨s.flushed, lineWithNewline, inCodeBlock⟩
  else { s with current := s.current ++ lineWithNewline, inCodeBlock := inCodeBlock }

def chunkMessageForPlatform (text _platform : String) (maxLen : Nat) : List String :=
  if text.utf8ByteSize ≤ maxLen then [text]
  else ((lines text).foldl (MessageChunker.line maxLen) ⟨[], "", false⟩).flushed

/-! The lines of each chunk -/

def closedText (group : List String) : String := String.join (group.map (· ++ "\n"))

def render (group : List String) : String := trimEnd (closedText group)

def toggle (inCode : Bool) (line : String) : Bool := if isFence line then !inCode else inCode

/-- The line goes into the chunk that holds the group and stays within the limit. -/
def Fits (maxLen : Nat) (group : List String) (line : String) : Prop :=
  (closedText group).utf8ByteSize + (line ++ "\n").utf8ByteSize ≤ maxLen

instance (maxLen : Nat) (group : List String) (line : String) : Decidable (Fits maxLen group line) :=
  inferInstanceAs (Decidable (_ ≤ _))

def full (maxLen : Nat) (inCode : Bool) (group : List String) (line : String) : Bool :=
  !decide (Fits maxLen group line) && !inCode

/-- The loop on lines. -/
def fill (maxLen : Nat) (all : List String) : Filling String Bool := Filling.filled toggle (full maxLen) false all

/-- What the open chunk holds behind the lines. -/
def held (maxLen : Nat) (front : List String) : List String := (fill maxLen front).current

/-- An odd number of fences has been met. -/
def inCode (front : List String) : Bool := front.foldl toggle false

theorem closedText_append (a b : List String) : closedText (a ++ b) = closedText a ++ closedText b := by
  simp [closedText,String.join_append]

theorem closedText_eq_empty {group : List String} : closedText group = "" ↔ group = [] := by
  cases group with
  | nil => simp [closedText]
  | cons line rest => simp [closedText,String.append_eq_empty_iff]

theorem fill_control (maxLen : Nat) (front : List String) : (fill maxLen front).control = inCode front :=
  Filling.filled_control

theorem flushed_groups (f : Filling String Bool) (inCodeBlock : Bool) :
    MessageChunker.flushed ⟨f.closed.map render, closedText f.current, inCodeBlock⟩ = f.groups.map render := by
  unfold MessageChunker.flushed Filling.groups
  by_cases none : f.current = []
  · simp [none,closedText_eq_empty.mpr]
  · have some : closedText f.current ≠ "" := fun empty => none (closedText_eq_empty.mp empty)
    rw [if_pos some,if_neg (by simpa using none),List.map_append]
    rfl

/-- The loop on texts is the loop on lines. -/
theorem line_fill (maxLen : Nat) (all : List String) : all.foldl (MessageChunker.line maxLen) ⟨[], "", false⟩ =
    ⟨(fill maxLen all).closed.map render, closedText (fill maxLen all).current, inCode all⟩ := by
  induction all using List.reverseRecOn with
  | nil => rfl
  | append_singleton all line ih =>
    have one : closedText [line] = line ++ "\n" := by simp [closedText]
    have after : inCode (all ++ [line]) = toggle (inCode all) line := List.foldl_concat ..
    have step : fill maxLen (all ++ [line]) = Filling.push toggle (full maxLen) (fill maxLen all) line := Filling.filled_concat
    have decided : (maxLen < (closedText (fill maxLen all).current).utf8ByteSize + (line ++ "\n").utf8ByteSize) ↔
        ¬ Fits maxLen (fill maxLen all).current line := Nat.not_le.symm
    rw [List.foldl_concat,ih,step,after,MessageChunker.line,Filling.push,fill_control,full]
    simp only [decided,flushed_groups]
    by_cases fits : Fits maxLen (fill maxLen all).current line
    · simp [fits,closedText_append,one,toggle]
    · cases code : toggle (inCode all) line with
      | true =>
        have code' : (if isFence line = true then !inCode all else inCode all) = true := code
        simp [fits,closedText_append,one,code']
      | false =>
        have code' : (if isFence line = true then !inCode all else inCode all) = false := code
        simp [fits,one,code',Filling.groups]

theorem chunks_eq {text : String} (platform : String) {maxLen : Nat} (long : ¬ text.utf8ByteSize ≤ maxLen) :
    chunkMessageForPlatform text platform maxLen = (fill maxLen (lines text)).groups.map render := by
  rw [chunkMessageForPlatform,if_neg long,line_fill,flushed_groups]

/-! Sizes -/

theorem rdropWhile_prefix_append (a b : List Char) : a.rdropWhile isWhiteSpace <+: (a ++ b).rdropWhile isWhiteSpace := by
  induction b using List.reverseRecOn with
  | nil => rw [List.append_nil]
  | append_singleton b c ih =>
    rw [← List.append_assoc,List.rdropWhile_concat]
    split
    · exact ih
    · exact (List.rdropWhile_prefix _ _).trans ((List.prefix_append a b).trans (List.prefix_append _ _))

theorem trimEnd_size_mono (a b : String) : (trimEnd a).utf8ByteSize ≤ (trimEnd (a ++ b)).utf8ByteSize := by
  refine utf8ByteSize_mono (List.IsPrefix.sublist ?_)
  rw [trimEnd,trimEnd,String.toList_ofList,String.toList_ofList,String.toList_append]
  exact rdropWhile_prefix_append _ _

theorem trimEnd_size_le (s : String) : (trimEnd s).utf8ByteSize ≤ s.utf8ByteSize := by
  refine utf8ByteSize_mono ?_
  rw [trimEnd,String.toList_ofList]
  exact (List.rdropWhile_prefix _ _).sublist

theorem render_mono {g h : List String} (part : g <+: h) : (render g).utf8ByteSize ≤ (render h).utf8ByteSize := by
  obtain ⟨rest, rfl⟩ := part
  rw [render,render,closedText_append]
  exact trimEnd_size_mono _ _

/-- What the chunk a line goes to holds then. -/
theorem held_concat (maxLen : Nat) (front : List String) (line : String) : held maxLen (front ++ [line]) =
    if Fits maxLen (held maxLen front) line ∨ inCode (front ++ [line]) = true then held maxLen front ++ [line] else [line] := by
  have step : fill maxLen (front ++ [line]) = Filling.push toggle (full maxLen) (fill maxLen front) line := Filling.filled_concat
  have after : inCode (front ++ [line]) = toggle (inCode front) line := List.foldl_concat ..
  rw [held,step,Filling.push,fill_control,full,after,held]
  by_cases fits : Fits maxLen (fill maxLen front).current line
  · simp [fits]
  · cases toggle (inCode front) line <;> simp [fits]

/-- The chunks fit exactly when every line that does not fit as it is leaves a chunk that does when it is trimmed. -/
theorem chunks_fit_iff (maxLen : Nat) (all : List String) : (∀ g ∈ (fill maxLen all).groups, (render g).utf8ByteSize ≤ maxLen) ↔
    ∀ front line rest, all = front ++ line :: rest → ¬ Fits maxLen (held maxLen front) line →
      (render (held maxLen (front ++ [line]))).utf8ByteSize ≤ maxLen := by
  rw [fill,Filling.groups_iff fun g h part fits => (render_mono part).trans fits]
  refine forall_congr' fun front => forall_congr' fun line => forall_congr' fun rest => imp_congr_right fun _ => ?_
  constructor
  · exact fun fits _ => fits
  · intro each
    by_cases fits : Fits maxLen (held maxLen front) line
    · have one : closedText [line] = line ++ "\n" := by simp [closedText]
      refine (trimEnd_size_le _).trans ?_
      change (closedText (held maxLen (front ++ [line]))).utf8ByteSize ≤ maxLen
      rw [held_concat,if_pos (.inl fits),closedText_append,one,String.utf8ByteSize_append]
      exact fits
    · exact each fits

/-! Characters -/

/-- The characters of a text that are not white space. -/
def visible (text : String) : List Char := text.toList.filter fun c => !isWhiteSpace c

def visibleLines (group : List String) : List Char := group.flatMap visible

theorem visible_append (a b : String) : visible (a ++ b) = visible a ++ visible b := by
  simp [visible]

theorem visible_trimEnd (s : String) : visible (trimEnd s) = visible s := by
  have split : s.toList = s.toList.rdropWhile isWhiteSpace ++ (s.toList.reverse.takeWhile isWhiteSpace).reverse := by
    rw [List.rdropWhile,← List.reverse_append,List.takeWhile_append_dropWhile,List.reverse_reverse]
  have blank : (s.toList.reverse.takeWhile isWhiteSpace).reverse.filter (fun c => !isWhiteSpace c) = [] := by
    rw [List.filter_eq_nil_iff]
    intro c member
    simp [List.mem_takeWhile_imp (List.mem_reverse.mp member)]
  rw [visible,visible,trimEnd,String.toList_ofList]
  conv_rhs => rw [split,List.filter_append,blank,List.append_nil]

theorem visible_render (group : List String) : visible (render group) = visibleLines group := by
  rw [render,visible_trimEnd]
  induction group with
  | nil => rfl
  | cons line rest ih =>
    have split : closedText (line :: rest) = line ++ "\n" ++ closedText rest := by simp [closedText]
    have feed : visible "\n" = [] := by decide
    rw [split,visible_append,visible_append,feed,ih]
    simp [visibleLines]

theorem filter_intercalate {p : Char → Bool} (feed : p '\n' = false) (pieces : List (List Char)) :
    (List.intercalate ['\n'] pieces).filter p = pieces.flatMap (List.filter p) := by
  induction pieces with
  | nil => rfl
  | cons first rest ih =>
    cases rest with
    | nil => simp
    | cons second rest =>
      rw [List.intercalate_cons_cons,List.filter_append,List.filter_append,ih]
      simp [feed]

theorem visible_joinLines (all : List String) : visible (joinLines all) = visibleLines all := by
  rw [visible,Tools.joinLines_toList,filter_intercalate (by decide),List.flatMap_map]
  rfl

theorem filter_stripCr (line : List Char) : (Tools.stripCr line).filter (fun c => !isWhiteSpace c) =
    line.filter fun c => !isWhiteSpace c := by
  unfold Tools.stripCr
  split
  · next cr =>
    obtain ⟨front, rfl⟩ := List.getLast?_eq_some_iff.mp cr
    have white : isWhiteSpace '\r' = true := by decide
    simp [white]
  · rfl

/-- Cutting a text into lines loses white space only. -/
theorem visible_lines (text : String) : visibleLines (lines text) = visible text := by
  obtain ⟨front, last, whole, plain, plainLast⟩ := exists_closed '\n' text.toList
  have all := Tools.lines_closed whole plain plainLast
  have feed : isWhiteSpace '\n' = true := by decide
  have parts : visibleLines (lines text) = ((lines text).map String.toList).flatMap (List.filter fun c => !isWhiteSpace c) := by
    rw [List.flatMap_map]
    rfl
  have ending : (if last = [] then [] else [last]).flatMap (List.filter fun c => !isWhiteSpace c) =
      last.filter fun c => !isWhiteSpace c := by
    split
    · next none => rw [none]; rfl
    · simp
  have closedPart : (closed '\n' front).filter (fun c => !isWhiteSpace c) = front.flatMap (List.filter fun c => !isWhiteSpace c) := by
    rw [closed,List.filter_flatMap]
    exact List.flatMap_congr fun line _ => by simp [feed]
  rw [parts,all,List.flatMap_append,ending,List.flatMap_map,visible,whole,List.filter_append,closedPart]
  congr 1
  exact List.flatMap_congr fun line _ => filter_stripCr line

theorem visibleLines_flatten (groups : List (List String)) : visibleLines groups.flatten = groups.flatMap visibleLines := by
  induction groups with
  | nil => rfl
  | cons group rest ih =>
    rw [List.flatten_cons,List.flatMap_cons,← ih]
    exact List.flatMap_append

/-- The chunks together have the characters of the text. -/
theorem visible_chunks (text platform : String) (maxLen : Nat) :
    visible (joinLines (chunkMessageForPlatform text platform maxLen)) = visible text := by
  by_cases short : text.utf8ByteSize ≤ maxLen
  · rw [chunkMessageForPlatform,if_pos short,visible_joinLines]
    exact List.append_nil _
  · have each : (fun g => visible (render g)) = visibleLines := funext visible_render
    rw [chunks_eq platform short,visible_joinLines,visibleLines,List.flatMap_map,each,← visible_lines]
    conv_rhs => rw [← Filling.groups_flatten toggle (full maxLen) false (lines text)]
    exact (visibleLines_flatten _).symm

/-! Code blocks -/

/-- Lines from an opening fence to the one that closes it. -/
structure IsBlock (all front : List String) (opening : String) (body : List String) (closing : String) (rest : List String) : Prop where
  whole : all = front ++ opening :: (body ++ closing :: rest)
  outside : front.countP isFence % 2 = 0
  opens : isFence opening = true
  inside : ∀ line ∈ body, isFence line = false
  closes : isFence closing = true

def blockSize (opening : String) (body : List String) (closing : String) : Nat :=
  (joinLines (opening :: (body ++ [closing]))).utf8ByteSize

/-- No chunk ends between the first and the last line of the block. -/
def Kept (groups : List (List String)) (front body : List String) : Prop :=
  ∀ pre post, groups = pre ++ post → pre.flatten.length ≤ front.length ∨ front.length + body.length + 2 ≤ pre.flatten.length

theorem inCode_iff {front : List String} : inCode front = true ↔ front.countP isFence % 2 = 1 := by
  induction front using List.reverseRecOn with
  | nil => decide
  | append_singleton front line ih =>
    have after : inCode (front ++ [line]) = toggle (inCode front) line := List.foldl_concat ..
    rw [after,List.countP_append,toggle]
    cases fence : isFence line with
    | true =>
      rw [if_pos rfl,Bool.not_eq_true',← Bool.not_eq_true,ih]
      simp [fence]
      omega
    | false => simp [fence,ih]

section

variable {maxLen : Nat} {all front body rest : List String} {opening closing : String}

theorem IsBlock.open_inCode (block : IsBlock all front opening body closing rest) {part : List String} (inside : part <+: body) :
    inCode (front ++ opening :: part) = true := by
  have none : part.countP isFence = 0 := by
    rw [List.countP_eq_zero]
    intro line member
    simp [block.inside line (inside.subset member)]
  have outside := block.outside
  rw [inCode_iff,List.countP_append,List.countP_cons_of_pos block.opens,none]
  omega

theorem IsBlock.closed_inCode (block : IsBlock all front opening body closing rest) :
    inCode (front ++ opening :: body ++ [closing]) = false := by
  have after : inCode (front ++ opening :: body ++ [closing]) = toggle (inCode (front ++ opening :: body)) closing :=
    List.foldl_concat ..
  rw [after,block.open_inCode List.prefix_rfl,toggle,if_pos block.closes]
  rfl

theorem opens_iff {line : String} : Filling.Opens toggle (full maxLen) false front line ↔
    ¬ Fits maxLen (held maxLen front) line ∧ inCode (front ++ [line]) = false ∧ front ≠ [] := by
  have after : inCode (front ++ [line]) = toggle (inCode front) line := List.foldl_concat ..
  rw [Filling.Opens,← fill,fill_control,full,after,held]
  simp [and_assoc]

/-- A block is in one chunk exactly when its closing fence fits behind what its chunk holds. -/
theorem IsBlock.kept_iff (block : IsBlock all front opening body closing rest) :
    Kept (fill maxLen all).groups front body ↔ Fits maxLen (held maxLen (front ++ opening :: body)) closing := by
  have shape : all = (front ++ opening :: body) ++ closing :: rest := by rw [block.whole]; simp
  constructor
  · intro kept
    by_contra misfit
    have opens := opens_iff.mpr ⟨misfit, block.closed_inCode, by simp⟩
    obtain ⟨pre, post, cut, whole⟩ := Filling.cut_of_opens opens rest
    rw [← shape,← fill] at cut
    have sides := kept pre post cut
    rw [whole,List.length_append,List.length_cons] at sides
    omega
  · intro fits pre post cut
    rcases Filling.opens_of_cut cut with none | total | ⟨line, later, split_, opens⟩
    · exact .inl (by simp [none])
    · refine .inr ?_
      rw [total,block.whole]
      simp
      omega
    · by_contra between
      obtain ⟨before, behind⟩ := not_or.mp between
      obtain ⟨misfit, outside, -⟩ := opens_iff.mp opens
      rw [block.whole] at split_
      rcases List.append_eq_append_iff.mp split_ with ⟨more, through, tail⟩ | ⟨more, short, tail⟩
      · cases more with
        | nil => exact before (by simp [through])
        | cons first part =>
          obtain ⟨rfl, behind_⟩ := List.cons.inj tail
          have inner : part = body ∧ line = closing ∨ ∃ further, body = part ++ line :: further := by
            rcases List.append_eq_append_iff.mp behind_ with ⟨extra, longer, end_⟩ | ⟨extra, shorter, end_⟩
            · cases extra with
              | nil => exact .inl ⟨by simpa using longer, (List.cons.inj end_).1.symm⟩
              | cons x extra =>
                rw [through,longer] at behind
                simp at behind
                omega
            · cases extra with
              | nil => exact .inl ⟨by simpa using shorter.symm, (List.cons.inj end_).1⟩
              | cons x extra => exact .inr ⟨extra, by rw [shorter,(List.cons.inj end_).1]⟩
          rcases inner with ⟨rfl, rfl⟩ | ⟨further, rfl⟩
          · exact misfit (through ▸ fits)
          · have inside := block.open_inCode (show part ++ [line] <+: part ++ line :: further from ⟨further, by simp⟩)
            rw [through,List.append_assoc,List.cons_append,inside] at outside
            cases outside
      · exact before (by rw [short]; simp)

theorem fence_visible {line : String} (fence : isFence line = true) : 0 < (visible line).length := by
  have start : "```".toList <+: (trimStart line).toList := of_decide_eq_true fence
  have some : ("```".toList.any fun c => !isWhiteSpace c) = true := by decide
  obtain ⟨c, member, seen⟩ := List.any_eq_true.mp some
  refine List.length_pos_of_mem (a := c) (List.mem_filter.mpr ⟨?_, seen⟩)
  have inside := start.subset member
  rw [trimStart,String.toList_ofList] at inside
  exact (List.dropWhile_sublist _).subset inside

theorem visibleLines_mono {a b : List String} (part : a <+: b) : (visibleLines a).length ≤ (visibleLines b).length := by
  obtain ⟨rest, rfl⟩ := part
  simp [visibleLines]

theorem prefix_of_short {a b whole : List String} (first : a <+: whole) (second : b <+: whole) (short : a.length ≤ b.length) : a <+: b :=
  List.prefix_of_prefix_length_le first second short

/-- The characters before a cut say on which side of a block it is. -/
theorem IsBlock.kept_of_render (block : IsBlock all front opening body closing rest) {groups others : List (List String)}
    (same : groups.map render = others.map render) (whole : groups.flatten = all) (whole' : others.flatten = all)
    (kept : Kept others front body) : Kept groups front body := by
  intro pre post cut
  have seen (gs : List (List String)) : visibleLines gs.flatten = (gs.map render).flatMap visible := by
    rw [visibleLines_flatten,List.flatMap_map]
    exact List.flatMap_congr fun g _ => (visible_render g).symm
  have counts : (visibleLines pre.flatten).length = (visibleLines (others.take pre.length).flatten).length := by
    have taken : pre.map render = (others.take pre.length).map render := by
      rw [List.map_take,← same,cut,List.map_append,List.take_left']
      simp
    rw [seen,seen,taken]
  have prefix_ : pre.flatten <+: all := by
    rw [← whole,cut,List.flatten_append]
    exact List.prefix_append _ _
  have prefix' : (others.take pre.length).flatten <+: all := by
    conv_rhs => rw [← whole',← List.take_append_drop pre.length others,List.flatten_append]
    exact List.prefix_append _ _
  have open_ := fence_visible block.opens
  have close := fence_visible block.closes
  rcases kept _ _ (List.take_append_drop pre.length others).symm with before | behind
  · refine .inl ?_
    by_contra after
    have low := visibleLines_mono (prefix_of_short prefix' ⟨opening :: (body ++ closing :: rest), block.whole.symm⟩ before)
    have high := visibleLines_mono (prefix_of_short (a := front ++ [opening]) ⟨body ++ closing :: rest, by rw [block.whole]; simp⟩
      prefix_ (by rw [List.length_append,List.length_singleton]; omega))
    simp only [visibleLines,List.flatMap_append,List.length_append,List.flatMap_singleton] at low high counts
    omega
  · refine .inr ?_
    by_contra before
    have low := visibleLines_mono (prefix_of_short (b := front ++ opening :: body) prefix_ ⟨closing :: rest, by rw [block.whole]; simp⟩
      (by rw [List.length_append,List.length_cons]; omega))
    have high := visibleLines_mono (prefix_of_short (a := front ++ opening :: body ++ [closing]) ⟨rest, by rw [block.whole]; simp⟩
      prefix' (by simp only [List.length_append,List.length_cons,List.length_nil]; omega))
    simp only [visibleLines,List.flatMap_append,List.length_append,List.flatMap_singleton] at low high counts
    omega

end

/-- The lines of the text in chunks: where a block that would fit begins, it ends. -/
def KeepsBlocks (text : String) (maxLen : Nat) (chunks : List String) : Prop :=
  chunks = [text] ∨ ∃ groups, groups.flatten = lines text ∧ chunks = groups.map render ∧
    ∀ front opening body closing rest, IsBlock (lines text) front opening body closing rest →
      blockSize opening body closing ≤ maxLen → Kept groups front body

/-- Behind what the loop holds: a line that does not fit leaves a chunk that does when it is trimmed, and a closing
fence that does not fit closes a block that is too long for a chunk. -/
structure Harmless (maxLen : Nat) (all : List String) : Prop where
  trimmed : ∀ front line rest, all = front ++ line :: rest → ¬ Fits maxLen (held maxLen front) line →
    (render (if inCode (front ++ [line]) then held maxLen front ++ [line] else [line])).utf8ByteSize ≤ maxLen
  blocks : ∀ front opening body closing rest, IsBlock all front opening body closing rest →
    ¬ Fits maxLen (held maxLen (front ++ opening :: body)) closing → maxLen < blockSize opening body closing

theorem keepsBlocks_iff {text : String} {maxLen : Nat} (platform : String) (long : ¬ text.utf8ByteSize ≤ maxLen) :
    KeepsBlocks text maxLen (chunkMessageForPlatform text platform maxLen) ↔
      ∀ front opening body closing rest, IsBlock (lines text) front opening body closing rest →
        ¬ Fits maxLen (held maxLen (front ++ opening :: body)) closing → maxLen < blockSize opening body closing := by
  rw [chunks_eq platform long]
  have flat : (fill maxLen (lines text)).groups.flatten = lines text := Filling.groups_flatten ..
  constructor
  · intro keeps front opening body closing rest block misfit
    by_contra small
    refine misfit (block.kept_iff.mp ?_)
    rcases keeps with single | ⟨groups, whole, same, kept⟩
    · obtain ⟨g, one, -⟩ := List.map_eq_singleton_iff.mp single
      intro pre post cut
      rw [one] at cut flat
      cases pre with
      | nil => exact .inl (Nat.zero_le _)
      | cons first more =>
        obtain ⟨rfl, rest_⟩ := List.cons.inj cut
        obtain ⟨rfl, -⟩ := List.append_eq_nil_iff.mp rest_.symm
        refine .inr ?_
        rw [flat,block.whole]
        simp
        omega
    · exact block.kept_of_render same flat whole (kept _ _ _ _ _ block (Nat.le_of_not_lt small))
  · intro harmless
    refine .inr ⟨_, flat, rfl, fun front opening body closing rest block small => block.kept_iff.mpr ?_⟩
    by_contra misfit
    have := harmless _ _ _ _ _ block misfit
    omega

/-- Chunks fit, lose nothing and keep blocks that would fit exactly when the text fits whole or its lines are harmless. -/
theorem chunks_exact (text platform : String) (maxLen : Nat) :
    ((∀ chunk ∈ chunkMessageForPlatform text platform maxLen, chunk.utf8ByteSize ≤ maxLen) ∧
      visible (joinLines (chunkMessageForPlatform text platform maxLen)) = visible text ∧
      KeepsBlocks text maxLen (chunkMessageForPlatform text platform maxLen)) ↔
    text.utf8ByteSize ≤ maxLen ∨ Harmless maxLen (lines text) := by
  by_cases short : text.utf8ByteSize ≤ maxLen
  · have one : chunkMessageForPlatform text platform maxLen = [text] := if_pos short
    refine iff_of_true ⟨?_, visible_chunks text platform maxLen, .inl one⟩ (.inl short)
    rw [one]
    simpa using short
  · have fits : (∀ chunk ∈ chunkMessageForPlatform text platform maxLen, chunk.utf8ByteSize ≤ maxLen) ↔
        ∀ front line rest, lines text = front ++ line :: rest → ¬ Fits maxLen (held maxLen front) line →
          (render (if inCode (front ++ [line]) then held maxLen front ++ [line] else [line])).utf8ByteSize ≤ maxLen := by
      rw [chunks_eq platform short,List.forall_mem_map,chunks_fit_iff]
      refine forall_congr' fun front => forall_congr' fun line => forall_congr' fun rest => imp_congr_right fun _ =>
        imp_congr_right fun misfit => ?_
      rw [held_concat]
      simp only [misfit,false_or]
    rw [fits,keepsBlocks_iff platform short]
    constructor
    · rintro ⟨trimmed, -, blocks⟩
      exact .inr ⟨trimmed, blocks⟩
    · rintro (whole | harmless)
      · exact absurd whole short
      · exact ⟨harmless.trimmed, visible_chunks text platform maxLen, harmless.blocks⟩

/-- A line of nine bytes is a chunk of nine bytes. -/
theorem long_line_sent : chunkMessageForPlatform "nine_long" "discord" 8 = ["nine_long"] ∧ 8 < "nine_long".utf8ByteSize := by
  decide +kernel

end Zaion.Media
