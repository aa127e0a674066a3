import Zaion.Lib.Size
import Zaion.Parsers.Formats
import Zaion.Sample

/-! Calls written between tags and read again. The closing tag is searched for in the text of the call
itself, string literals included. -/
namespace Zaion.Parsers

open Lib Provider

structure Call where
  name : String
  arguments : List (String × Json)

/-- What a tool call is written as. -/
def Call.fields (call : Call) : List (String × Json) := [("name", .str call.name), ("arguments", .obj call.arguments)]

/-- Its text, between the tags. -/
def payload (host : Host) (call : Call) : List Char := (host.toText (.obj call.fields)).toList

/-- Each call in its tags, with the prose that follows it. -/
def render (host : Host) (opening closing : List Char) (calls : List (Call × List Char)) : List Char :=
  calls.flatMap fun written => opening ++ (payload host written.1 ++ (closing ++ written.2))

/-- The tags of the parsers that look for calls between tags. -/
def tagsOf : ToolCallParser → Option (String × String)
  | .deepSeekV31 | .qwen3Coder => some ("<tool_call>", "</tool_call>")
  | .longcat => some ("<functioncall>", "</functioncall>")
  | _ => none

/-- The names and arguments of calls. -/
def answered (calls : List ToolCall) : List (String × Json) := calls.map fun call => (call.name, call.arguments)

/-- What one text between tags is read as. -/
def callOf (host : Host) (content : List Char) : Option (String × Json) :=
  ((readTrimmed host content).bind (jsonToToolCall host "")).map fun call => (call.name, call.arguments)

/-- The text of the call is read as the call, and the closing tag is no part of it. -/
structure Whole (host : Host) (closing : List Char) (call : Call) : Prop where
  reads : callOf host (payload host call) = some (call.name, .obj call.arguments)
  untagged : ¬ closing <:+: payload host call

/-- The characters JSON text has outside of string literals, and the quotes that open one. -/
def isStructural (c : Char) : Bool :=
  c ∈ ['\x7b', '\x7d', '[', ']', ',', ':', '"', '+', '-', '.', '0', '1', '2', '3', '4', '5', '6', '7', '8', '9', 'e', 'E',
    't', 'r', 'u', 'f', 'a', 'l', 's', 'n']

/-- What JSON's grammar says of the texts that are written and read. -/
structure WritesJson (host : Host) : Prop where
  /-- An object is written between its braces. -/
  braces : ∀ fields, (host.toText (.obj fields)).toList.head? = some '\x7b' ∧
    (host.toText (.obj fields)).toList.getLast? = some '\x7d'
  /-- Out of its literals a written text has no white space, and no words but three. -/
  structural : ∀ v, ∀ c ∈ Braces.start.outside (host.toText v).toList, isStructural c = true
  /-- The text of an object is not complete before its end. -/
  proper : ∀ fields front more, (host.toText (.obj fields)).toList = front ++ more → more ≠ [] →
    host.ofText (String.ofList front) = none
  /-- There are no escapes out of literals. -/
  escapes : ∀ text v, host.ofText (String.ofList text) = some v → '\\' ∉ Braces.start.outside text
  /-- A key is a literal of the text, word for word if nothing is escaped. -/
  keys : ∀ text fields key v, host.ofText (String.ofList text) = some (.obj fields) → '\\' ∉ text → (key, v) ∈ fields →
    ∀ c ∈ key.toList, c ∈ Braces.start.inside text

/-- Two tags of which neither can begin inside the other. -/
structure Tags (opening closing : List Char) : Prop where
  opens : ∃ c rest, opening = '<' :: c :: rest ∧ '<' ∉ c :: rest ∧ c ≠ '/'
  closes : ∃ rest, closing = '<' :: '/' :: rest ∧ '<' ∉ '/' :: rest
  plain : ∀ c ∈ opening, c ≠ '"' ∧ c ≠ '\\'

section

variable {opening closing text inner content rest prose : List Char} {host : Host}

/-! The loop over the tags. -/

theorem Tags.opening_borderless (tags : Tags opening closing) : Borderless opening := by
  obtain ⟨c, rest, same, once, _⟩ := tags.opens
  exact ⟨'<', c :: rest, same, once⟩

theorem Tags.closing_borderless (tags : Tags opening closing) : Borderless closing := by
  obtain ⟨rest, same, once⟩ := tags.closes
  exact ⟨'<', '/' :: rest, same, once⟩

theorem Tags.opening_head (tags : Tags opening closing) : opening.head? = some '<' := by
  obtain ⟨c, rest, rfl, _⟩ := tags.opens
  rfl

theorem Tags.opening_ne (tags : Tags opening closing) : opening ≠ [] := by
  obtain ⟨c, rest, rfl, _⟩ := tags.opens
  exact List.cons_ne_nil _ _

/-- A closing tag is passed over. -/
theorem Tags.pass (tags : Tags opening closing) (rest : List Char) :
    breakAt opening (closing ++ rest) = (breakAt opening rest).map fun parts => (closing ++ parts.1, parts.2) := by
  obtain ⟨c, tail, rfl, once, other⟩ := tags.opens
  obtain ⟨more, rfl, single⟩ := tags.closes
  have apart : ¬ '<' :: c :: tail <+: '<' :: ('/' :: more ++ rest) := by
    intro start
    exact other (List.cons_prefix_cons.mp (List.cons_prefix_cons.mp start).2).1
  rw [List.cons_append,breakAt,if_neg apart,breakAt_pass rfl single,Option.map_map]
  rfl

theorem contentsFrom_enough (nonempty : opening ≠ []) {n m : Nat} (text : List Char) (first : text.length < n)
    (second : text.length < m) : contentsFrom opening closing n text = contentsFrom opening closing m text := by
  induction n generalizing m text with
  | zero => omega
  | succ n ih =>
    cases m with
    | zero => omega
    | succ m =>
      rw [contentsFrom,contentsFrom]
      cases found : breakAt opening text with
      | none => rfl
      | some parts =>
        obtain ⟨before, inner⟩ := parts
        have size := congrArg List.length (breakAt_split found)
        have some_ := List.length_pos_iff.mpr nonempty
        simp only [List.length_append] at size
        dsimp only
        cases breakAt closing inner with
        | none => rfl
        | some parts =>
          have shorter : (inner.drop parts.1.length).length ≤ inner.length := by
            rw [List.length_drop]
            omega
          exact congrArg (parts.1 :: ·) (ih _ (by omega) (by omega))

theorem contents_none (absent : breakAt opening text = none) : contents opening closing text = [] := by
  rw [contents,contentsFrom,absent]

theorem contents_some (nonempty : opening ≠ []) (opens : breakAt opening text = some (prose, inner))
    (closes : breakAt closing inner = some (content, rest)) :
    contents opening closing text = content :: contents opening closing (inner.drop content.length) := by
  have size := congrArg List.length (breakAt_split opens)
  have some_ := List.length_pos_iff.mpr nonempty
  have shorter : (inner.drop content.length).length ≤ inner.length := by
    rw [List.length_drop]
    omega
  simp only [List.length_append] at size
  rw [contents,contentsFrom,opens]
  dsimp only
  rw [closes]
  exact congrArg (content :: ·) (contentsFrom_enough nonempty _ (by omega) (Nat.lt_succ_self _))

theorem contents_open (opens : breakAt opening text = some (prose, inner)) (closes : breakAt closing inner = none) :
    contents opening closing text = [] := by
  rw [contents,contentsFrom,opens]
  dsimp only
  rw [closes]

/-- Nothing is found in a part that no opening tag begins in. -/
theorem contents_skip (nonempty : opening ≠ []) (skips : breakAt opening (prose ++ rest) =
    (breakAt opening rest).map fun parts => (prose ++ parts.1, parts.2)) :
    contents opening closing (prose ++ rest) = contents opening closing rest := by
  cases found : breakAt opening rest with
  | none =>
    rw [found] at skips
    rw [contents_none skips,contents_none found]
  | some parts =>
    obtain ⟨before, inner⟩ := parts
    rw [found] at skips
    cases closed : breakAt closing inner with
    | none => rw [contents_open skips closed,contents_open found closed]
    | some parts =>
      rw [contents_some nonempty skips closed,contents_some nonempty found closed]

theorem Tags.contents_closing (tags : Tags opening closing) (rest : List Char) :
    contents opening closing (closing ++ rest) = contents opening closing rest :=
  contents_skip tags.opening_ne (tags.pass rest)

/-- Nothing is found in prose before a tag. -/
theorem Tags.contents_prose (tags : Tags opening closing) {tag : List Char} (begins : tag.head? = some '<')
    (absent : ¬ opening <:+: prose) (rest : List Char) :
    contents opening closing (prose ++ (tag ++ rest)) = contents opening closing (tag ++ rest) := by
  obtain ⟨tail, rfl⟩ := List.head?_eq_some_iff.mp begins
  exact contents_skip tags.opening_ne (breakAt_skip tags.opening_borderless tags.opening_head absent (tail ++ rest))

/-- What is found up to a closing tag begins behind an opening one. -/
theorem Tags.contents_before (tags : Tags opening closing) (text rest : List Char) :
    ∃ found, contents opening closing (text ++ (closing ++ rest)) = found ++ contents opening closing rest ∧
      ∀ content ∈ found, ∃ before after, text = before ++ (opening ++ (content ++ after)) := by
  induction size : text.length using Nat.strong_induction_on generalizing text with
  | _ n ih =>
    have begins : closing.head? = some '<' := by
      obtain ⟨more, rfl, _⟩ := tags.closes
      rfl
    cases opens : breakAt opening text with
    | none =>
      refine ⟨[], ?_, by simp⟩
      rw [tags.contents_prose begins (breakAt_none_iff.mp opens),tags.contents_closing]
      rfl
    | some parts =>
      obtain ⟨before, inner⟩ := parts
      have split := breakAt_split opens
      have opens' := breakAt_append opens (closing ++ rest)
      cases closes : breakAt closing inner with
      | none =>
        have closes' := breakAt_first tags.closing_borderless (breakAt_none_iff.mp closes) rest
        refine ⟨[inner], ?_, ?_⟩
        · rw [contents_some tags.opening_ne opens' closes',List.drop_left,tags.contents_closing]
          rfl
        · intro content member
          rw [List.mem_singleton.mp member]
          exact ⟨before, [], by rw [List.append_nil,split]⟩
      | some parts =>
        obtain ⟨content, behind⟩ := parts
        have inside := breakAt_split closes
        have closes' := breakAt_append closes (closing ++ rest)
        have shorter : behind.length < n := by
          have some_ := List.length_pos_iff.mpr tags.opening_ne
          rw [← size,split,inside]
          simp only [List.length_append]
          omega
        obtain ⟨found, same, placed⟩ := ih behind.length shorter behind rfl
        refine ⟨content :: found, ?_, ?_⟩
        · rw [contents_some tags.opening_ne opens' closes',inside,List.append_assoc,List.drop_left,List.append_assoc,
            tags.contents_closing,same]
          rfl
        · intro other member
          obtain rfl | member := List.mem_cons.mp member
          · exact ⟨before, closing ++ behind, by rw [split,inside]⟩
          · obtain ⟨front, after, place⟩ := placed other member
            refine ⟨before ++ (opening ++ (content ++ (closing ++ front))), after, ?_⟩
            rw [split,inside,place]
            simp only [List.append_assoc]

/-- What is found in a text between tags: the text, or slices of it that are cut off by a closing tag. -/
theorem Tags.contents_tagged (tags : Tags opening closing) (text rest : List Char) :
    ∃ found, contents opening closing (opening ++ (text ++ (closing ++ rest))) = found ++ contents opening closing rest ∧
      (¬ closing <:+: text ∧ found = [text] ∨ closing <:+: text ∧ ∀ content ∈ found,
        (∃ more, more ≠ [] ∧ text = content ++ more) ∨
        ∃ before after, text = before ++ (opening ++ (content ++ after))) := by
  have opens := breakAt_self opening (text ++ (closing ++ rest))
  cases closes : breakAt closing text with
  | none =>
    have absent := breakAt_none_iff.mp closes
    refine ⟨[text], ?_, .inl ⟨absent, rfl⟩⟩
    rw [contents_some tags.opening_ne opens (breakAt_first tags.closing_borderless absent rest),List.drop_left,
      tags.contents_closing]
    rfl
  | some parts =>
    obtain ⟨content, behind⟩ := parts
    have inside := breakAt_split closes
    obtain ⟨found, same, placed⟩ := tags.contents_before behind rest
    have occurs : closing <:+: text := ⟨content, behind, by rw [inside,List.append_assoc]⟩
    refine ⟨content :: found, ?_, .inr ⟨occurs, ?_⟩⟩
    · rw [contents_some tags.opening_ne opens (breakAt_append closes (closing ++ rest)),inside,List.append_assoc,
        List.drop_left,List.append_assoc,tags.contents_closing,same]
      rfl
    · intro other member
      obtain rfl | member := List.mem_cons.mp member
      · obtain ⟨more, rfl, _⟩ := tags.closes
        exact .inl ⟨_, by simp, inside⟩
      · obtain ⟨before, after, place⟩ := placed other member
        exact .inr ⟨content ++ (closing ++ before), after, by rw [inside,place]; simp only [List.append_assoc]⟩

/-! What the texts are read as. -/

theorem lookup_mem {key : String} {v : Json} {fields : List (String × Json)} (found : Json.lookup key fields = some v) :
    (key, v) ∈ fields := by
  induction fields with
  | nil => cases found
  | cons field fields ih =>
    obtain ⟨k, a⟩ := field
    rw [Json.lookup] at found
    split at found
    · next same =>
      cases found
      rw [same]
      exact List.mem_cons_self
    · exact List.mem_cons_of_mem _ (ih found)

/-- A value is a call by its `name` or its `function` field. -/
theorem jsonToToolCall_unnamed {id : String} {v : Json} (name : v.get "name" = none) (function : v.get "function" = none) :
    jsonToToolCall host id v = none := by
  unfold jsonToToolCall
  rw [name,function]
  rfl

/-- Trimming leaves a slice with white space around it. -/
theorem trim_slice (content : List Char) : ∃ front kept back, content = front ++ (kept ++ back) ∧
    trim (String.ofList content) = String.ofList kept ∧ ∀ c ∈ front, isWhiteSpace c = true := by
  obtain ⟨back, split⟩ := List.rdropWhile_prefix isWhiteSpace (l := content.dropWhile isWhiteSpace)
  refine ⟨content.takeWhile isWhiteSpace, (content.dropWhile isWhiteSpace).rdropWhile isWhiteSpace, back, ?_, ?_, ?_⟩
  · rw [split,List.takeWhile_append_dropWhile]
  · rw [trim_eq,String.toList_ofList]
  · exact fun c member => List.mem_takeWhile_imp member

theorem callOf_unread {content kept : List Char} (same : trim (String.ofList content) = String.ofList kept)
    (unread : host.ofText (String.ofList kept) = none) : callOf host content = none := by
  rw [callOf,readTrimmed,same,unread]
  rfl

/-- The front of a call's text is no call. -/
theorem WritesJson.front (writes : WritesJson host) {call : Call} {content more : List Char} (some_ : more ≠ [])
    (split : payload host call = content ++ more) : callOf host content = none := by
  obtain ⟨front, kept, back, slice, same, white⟩ := trim_slice content
  have none_ : front = [] := by
    cases front with
    | nil => rfl
    | cons c tail =>
      have head := (writes.braces call.fields).1
      rw [← payload,split,slice] at head
      rw [List.cons_append,List.cons_append,List.head?_cons,Option.some.injEq] at head
      have blank := white c List.mem_cons_self
      rw [head] at blank
      exact absurd blank (by decide)
  rw [none_,List.nil_append] at slice
  refine callOf_unread same (writes.proper call.fields kept (back ++ more) ?_ (by simp [some_]))
  rw [← payload,split,slice,List.append_assoc]

/-- A tag in a written text, and the white space behind it, is inside of a literal. -/
theorem WritesJson.literal (writes : WritesJson host) (tags : Tags opening closing) {call : Call}
    {before white rest : List Char} (split : payload host call = before ++ (opening ++ (white ++ rest)))
    (blank : ∀ c ∈ white, isWhiteSpace c = true) :
    (Braces.start.after (before ++ (opening ++ white))).inString = true ∧
      (Braces.start.after (before ++ (opening ++ white))).escapeNext = false := by
  have plain := tags.plain
  obtain ⟨c, tail, rfl, _⟩ := tags.opens
  have inside : (Braces.start.after before).inString = true := by
    by_contra bare
    have outside : '<' ∈ Braces.start.outside (payload host call) := by
      rw [split,Braces.outside_append,List.cons_append,Braces.outside,if_neg bare]
      exact List.mem_append_right _ List.mem_cons_self
    exact absurd (writes.structural _ '<' outside) (by decide)
  obtain ⟨still, fresh⟩ := Braces.next_plain inside (c := '<') (by decide) (by decide)
  rw [Braces.after_append,List.cons_append,Braces.after_cons]
  refine Braces.after_plain still fresh ?_
  intro d member
  obtain member | member := List.mem_append.mp member
  · exact plain d (List.mem_cons_of_mem '<' member)
  · have space := blank d member
    constructor
    · rintro rfl
      exact absurd space (by decide)
    · rintro rfl
      exact absurd space (by decide)

/-- Behind a tag of a written text, what is read has no names: the tag is inside of a literal, so that
what is read as keys from there on are the parts between the literals. -/
theorem WritesJson.behind (writes : WritesJson host) (tags : Tags opening closing) {call : Call}
    {before content after : List Char} (split : payload host call = before ++ (opening ++ (content ++ after))) :
    callOf host content = none := by
  obtain ⟨front, kept, back, slice, same, white⟩ := trim_slice content
  cases read : host.ofText (String.ofList kept) with
  | none => exact callOf_unread same read
  | some v =>
    have place : payload host call = before ++ (opening ++ (front ++ (kept ++ (back ++ after)))) := by
      rw [split,slice]
      simp only [List.append_assoc]
    have place' : payload host call = before ++ (opening ++ front) ++ kept ++ (back ++ after) := by
      rw [place]
      simp only [List.append_assoc]
    obtain ⟨inString, fresh⟩ := writes.literal tags place white
    have opposite : Braces.Opposite Braces.start (Braces.start.after (before ++ (opening ++ front))) :=
      ⟨rfl, fresh, inString⟩
    have structural : ∀ c ∈ (Braces.start.after (before ++ (opening ++ front))).outside kept, isStructural c = true := by
      intro c member
      refine writes.structural (.obj call.fields) c ?_
      rw [← payload,place',Braces.outside_append,Braces.outside_append]
      exact List.mem_append_left _ (List.mem_append_right _ member)
    have slash : '\\' ∉ (Braces.start.after (before ++ (opening ++ front))).outside kept :=
      fun member => absurd (structural _ member) (by decide)
    obtain ⟨unescaped, literals⟩ := opposite.literals (writes.escapes kept v read) slash
    -- No key of the value has a letter that JSON's own words lack.
    have unnamed {key : String} {c : Char} (letter : c ∈ key.toList) (foreign : isStructural c = false) :
        v.get key = none := by
      cases v with
      | obj fields =>
        cases found : Json.lookup key fields with
        | none => exact found
        | some field =>
          have inside := writes.keys kept fields key field read unescaped (lookup_mem found) c letter
          rw [structural c (literals c inside)] at foreign
          cases foreign
      | null | bool | num | str | arr => rfl
    have none_ : jsonToToolCall host "" v = none :=
      jsonToToolCall_unnamed (unnamed (c := 'm') (by decide) (by decide)) (unnamed (c := 'c') (by decide) (by decide))
    rw [callOf,readTrimmed,same,read,Option.bind_some,none_]
    rfl

/-! Every call between its tags. -/

/-- What a call written between tags is read as. -/
def readBack (host : Host) (closing : List Char) (call : Call) : Option (String × Json) :=
  if closing <:+: payload host call then none else callOf host (payload host call)

theorem filterMap_callOf_none {found : List (List Char)} (none_ : ∀ content ∈ found, callOf host content = none) :
    found.filterMap (callOf host) = [] := List.filterMap_eq_nil_iff.mpr none_

theorem Tags.contents_nil (tags : Tags opening closing) : contents opening closing [] = [] := by
  refine contents_none (breakAt_none_iff.mpr ?_)
  intro occurs
  exact tags.opening_ne (List.infix_nil.mp occurs)

theorem Tags.contents_then (tags : Tags opening closing) (calls : List (Call × List Char))
    (absent : ¬ opening <:+: prose) :
    contents opening closing (prose ++ render host opening closing calls) =
      contents opening closing (render host opening closing calls) := by
  cases calls with
  | nil => rw [render,List.flatMap_nil,List.append_nil,tags.contents_nil,contents_none (breakAt_none_iff.mpr absent)]
  | cons written rest =>
    rw [render,List.flatMap_cons,List.append_assoc]
    exact tags.contents_prose tags.opening_head absent _

theorem contents_render (writes : WritesJson host) (tags : Tags opening closing) (calls : List (Call × List Char))
    (absent : ∀ written ∈ calls, ¬ opening <:+: written.2) :
    (contents opening closing (render host opening closing calls)).filterMap (callOf host) =
      calls.filterMap fun written => readBack host closing written.1 := by
  induction calls with
  | nil =>
    rw [render,List.flatMap_nil,tags.contents_nil]
    rfl
  | cons written rest ih =>
    obtain ⟨found, same, kind⟩ := tags.contents_tagged (payload host written.1) (written.2 ++ render host opening closing rest)
    have whole : render host opening closing (written :: rest) =
        opening ++ (payload host written.1 ++ (closing ++ (written.2 ++ render host opening closing rest))) := by
      rw [render,List.flatMap_cons,← render]
      simp only [List.append_assoc]
    rw [whole,same,tags.contents_then rest (absent written List.mem_cons_self),List.filterMap_append,
      ih fun other member => absent other (List.mem_cons_of_mem _ member),List.filterMap_cons]
    obtain ⟨untagged, rfl⟩ | ⟨tagged, pieces⟩ := kind
    · rw [readBack,if_neg untagged]
      cases read : callOf host (payload host written.1) with
      | none => simp [read]
      | some answer => simp [read]
    · -- Nothing that a closing tag cuts off is a call.
      have none_ : found.filterMap (callOf host) = [] := by
        refine filterMap_callOf_none ?_
        intro content member
        obtain ⟨more, some_, front⟩ | ⟨before, after, behind⟩ := pieces content member
        · exact writes.front some_ front
        · exact writes.behind tags behind
      rw [readBack,if_pos tagged,none_]
      rfl

/-! The calls that are parsed. -/

theorem jsonToToolCall_pair (id : String) (v : Json) :
    (jsonToToolCall host id v).map (fun call => (call.name, call.arguments)) =
      (jsonToToolCall host "" v).map fun call => (call.name, call.arguments) := by
  unfold jsonToToolCall
  cases (((v.get "name").or ((v.get "function").bind (Json.get "name"))).bind Json.asStr) <;> rfl

theorem answered_collect (start : String) (values : List Json) : answered (collect host start values) =
    values.filterMap fun v => (jsonToToolCall host "" v).map fun call => (call.name, call.arguments) := by
  suffices run : ∀ results, answered (values.foldl
      (fun results v => results ++ (jsonToToolCall host (start ++ toString results.length) v).toList) results) =
        answered results ++
          values.filterMap fun v => (jsonToToolCall host "" v).map fun call => (call.name, call.arguments) from
    run []
  induction values with
  | nil => simp
  | cons v rest ih =>
    intro results
    rw [List.foldl_cons,ih,List.filterMap_cons,← jsonToToolCall_pair (start ++ toString results.length)]
    cases jsonToToolCall host (start ++ toString results.length) v with
    | none => simp
    | some call => simp [answered]

theorem answered_parseTagged (opening closing start raw : String) : answered (parseTagged host opening closing start raw) =
    (contents opening.toList closing.toList raw.toList).filterMap (callOf host) := by
  rw [parseTagged,answered_collect,List.filterMap_filterMap]
  refine List.filterMap_congr ?_
  intro content _
  rw [callOf]
  cases readTrimmed host content <;> rfl

theorem readBack_iff {call : Call} :
    readBack host closing call = some (call.name, .obj call.arguments) ↔ Whole host closing call := by
  rw [readBack]
  split
  · next tagged =>
    constructor
    · intro none_
      cases none_
    · exact fun whole => absurd tagged whole.untagged
  · next untagged => exact ⟨fun reads => ⟨reads, untagged⟩, fun whole => whole.reads⟩

/-- A fact about the characters of a text, checked one by one. -/
theorem each_of_all {text : List Char} {p : Char → Prop} [DecidablePred p]
    (all : text.all (fun c => decide (p c)) = true) : ∀ c ∈ text, p c :=
  fun c member => of_decide_eq_true (List.all_eq_true.mp all c member)

theorem tags_toolCall : Tags "<tool_call>".toList "</tool_call>".toList where
  opens := ⟨'t', "ool_call>".toList, by decide, by decide, by decide⟩
  closes := ⟨"tool_call>".toList, by decide, by decide⟩
  plain := each_of_all (by decide)

theorem tags_functionCall : Tags "<functioncall>".toList "</functioncall>".toList where
  opens := ⟨'f', "unctioncall>".toList, by decide, by decide, by decide⟩
  closes := ⟨"functioncall>".toList, by decide, by decide⟩
  plain := each_of_all (by decide)

theorem tagsOf_tags {parser : ToolCallParser} {opening closing : String} (tagged : tagsOf parser = some (opening, closing)) :
    Tags opening.toList closing.toList := by
  cases parser <;> cases tagged
  · exact tags_toolCall
  · exact tags_functionCall
  · exact tags_toolCall

theorem answered_parse {parser : ToolCallParser} {opening closing : String} (tagged : tagsOf parser = some (opening, closing))
    (raw : String) : answered (parser.parse host raw) =
      (contents opening.toList closing.toList raw.toList).filterMap (callOf host) := by
  cases parser <;> cases tagged <;> exact answered_parseTagged _ _ _ raw

/-- Calls written between a parser's own tags, with prose around them, are read back as they are exactly when
none of their texts has the closing tag in it and each is read as its call on its own. -/
theorem tagged_round_trip_iff {host : Host} (writes : WritesJson host) {parser : ToolCallParser} {opening closing : String}
    (tagged : tagsOf parser = some (opening, closing)) (prose : List Char) (calls : List (Call × List Char))
    (free : ∀ text ∈ prose :: calls.map Prod.snd, ¬ opening.toList <:+: text ∧ ¬ closing.toList <:+: text) :
    answered (parser.parse host (String.ofList (prose ++ render host opening.toList closing.toList calls))) =
        calls.map (fun written => (written.1.name, .obj written.1.arguments)) ↔
      ∀ written ∈ calls, Whole host closing.toList written.1 := by
  have tags := tagsOf_tags tagged
  have absent : ∀ written ∈ calls, ¬ opening.toList <:+: written.2 := fun written member =>
    (free written.2 (List.mem_cons_of_mem _ (List.mem_map_of_mem member))).1
  rw [answered_parse tagged,String.toList_ofList,tags.contents_then calls (free prose List.mem_cons_self).1,
    contents_render writes tags calls absent,List.filterMap_eq_map_iff_forall_eq_some]
  exact forall₂_congr fun written _ => readBack_iff

end

/-- A call of no arguments. -/
def echoCall : Call := ⟨"echo", []⟩

def echoText : String := "\x7b\"name\":\"echo\",\"arguments\":\x7b\x7d\x7d"

/-- Writes and reads this call only, and writes every other object as the empty one. -/
def echoHost : Host :=
  { sampleHost with
    toText := fun v => if v = .obj echoCall.fields then echoText else "\x7b\x7d"
    ofText := fun text => if text = echoText then some (.obj echoCall.fields) else none }

theorem echoHost_toText (v : Json) : echoHost.toText v = echoText ∨ echoHost.toText v = "\x7b\x7d" := by
  simp only [echoHost]
  split
  · exact .inl rfl
  · exact .inr rfl

theorem echoHost_ofText {text : List Char} {v : Json} (read : echoHost.ofText (String.ofList text) = some v) :
    text = echoText.toList ∧ v = .obj echoCall.fields := by
  simp only [echoHost] at read
  split at read
  · next same => exact ⟨by rw [← same,String.toList_ofList], (Option.some.inj read).symm⟩
  · cases read

theorem echoHost_writes : WritesJson echoHost where
  braces := by
    intro fields
    obtain same | same := echoHost_toText (.obj fields) <;> rw [same] <;> decide
  structural := by
    intro v
    obtain same | same := echoHost_toText v <;> rw [same] <;> exact each_of_all (by decide)
  proper := by
    intro fields front more split some_
    cases read : echoHost.ofText (String.ofList front) with
    | none => rfl
    | some v =>
      have size := congrArg List.length split
      have whole : (echoHost.toText (.obj fields)).toList.length ≤ echoText.toList.length := by
        obtain same | same := echoHost_toText (.obj fields)
        · rw [same]
        · rw [same]
          decide
      rw [List.length_append,(echoHost_ofText read).1] at size
      have left := List.length_pos_iff.mpr some_
      omega
  escapes := by
    intro text v read
    rw [(echoHost_ofText read).1]
    decide
  keys := by
    intro text fields key v read _ member
    obtain ⟨rfl, same⟩ := echoHost_ofText read
    cases same
    obtain same | same := List.mem_cons.mp member
    · cases same
      exact each_of_all (by decide)
    · cases List.mem_singleton.mp same
      exact each_of_all (by decide)

/-- The call in its tags, with a word on either side. -/
def echoTagged : List Char :=
  "ok ".toList ++ render echoHost "<functioncall>".toList "</functioncall>".toList [(echoCall, " done".toList)]

theorem echo_read_back : WritesJson echoHost ∧
    answered (ToolCallParser.longcat.parse echoHost (String.ofList echoTagged)) = [("echo", .obj [])] := by
  refine ⟨echoHost_writes, (tagged_round_trip_iff echoHost_writes rfl _ _ (by decide +kernel)).mpr ?_⟩
  intro written member
  rw [List.mem_singleton.mp member]
  exact ⟨by decide +kernel, by decide +kernel⟩

/-- A call with the closing tag in a string. -/
def tagCall : Call := ⟨"write", [("text", .str "a </tool_call> b")]⟩

theorem tag_in_string_lost : ToolCallParser.deepSeekV31.parse sampleHost
      (String.ofList (render sampleHost "<tool_call>".toList "</tool_call>".toList [(tagCall, [])])) = [] ∧
    ¬ answered (ToolCallParser.deepSeekV31.parse sampleHost
      (String.ofList (render sampleHost "<tool_call>".toList "</tool_call>".toList [(tagCall, [])]))) =
        [("write", .obj tagCall.arguments)] := by
  have lost : ToolCallParser.deepSeekV31.parse sampleHost
      (String.ofList (render sampleHost "<tool_call>".toList "</tool_call>".toList [(tagCall, [])])) = [] := by
    decide +kernel
  refine ⟨lost, ?_⟩
  rw [lost]
  exact List.cons_ne_nil _ _ ∘ Eq.symm

end Zaion.Parsers
