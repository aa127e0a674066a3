import Mathlib.Algebra.Ring.Nat
import Zaion.Lib.Numbered
import Zaion.Parsers.Formats
import Zaion.Sample

/-! The ids of the calls a text is parsed into. Ten parsers number their calls by place or as they
are found; one does both, block by block. -/
namespace Zaion.Parsers

open Lib Provider

def ids (calls : List ToolCall) : List String := calls.map ToolCall.id

/-- The value is read as a call. -/
def isCall (host : Host) (v : Json) : Bool := (jsonToToolCall host "" v).isSome

/-- The places of an array's calls. -/
def callPlaces (host : Host) (items : List Json) : List Nat :=
  (items.zipIdx.filter fun value => isCall host value.1).map Prod.snd

/-- How many calls a block adds. -/
def callsIn (host : Host) : Json → Nat
  | .arr items => (callPlaces host items).length
  | .obj fields => if isCall host (.obj fields) then 1 else 0
  | _ => 0

def callsOf (host : Host) (blocks : List Json) : Nat := (blocks.map (callsIn host)).sum

/-- What the code blocks of a text are read as. -/
def blockValues (host : Host) (raw : String) : List Json :=
  (extractCodeBlocks raw.toList).filterMap (readTrimmed host)

/-- No two arrays have a call at one place, and no array has one at the place that is the number of
calls in front of an object that is a call. -/
structure Apart (host : Host) (count : Nat) (blocks : List Json) : Prop where
  arrays : blocks.Pairwise fun a b => ∀ items items', a = .arr items → b = .arr items' →
    List.Disjoint (callPlaces host items) (callPlaces host items')
  objects : ∀ before fields after, blocks = before ++ .obj fields :: after → isCall host (.obj fields) = true →
    ∀ items, .arr items ∈ blocks → count + callsOf host before ∉ callPlaces host items

section

variable {host : Host} {id start : String} {v : Json} {call : ToolCall}

theorem jsonToToolCall_id (made : jsonToToolCall host id v = some call) : call.id = id := by
  obtain ⟨name, _, same⟩ := Option.bind_eq_some_iff.mp made
  cases same
  rfl

theorem jsonToToolCall_isSome : (jsonToToolCall host id v).isSome = isCall host v := by
  unfold isCall jsonToToolCall
  cases (((v.get "name").or ((v.get "function").bind (Json.get "name"))).bind Json.asStr) <;> rfl

theorem mistralCall_id (made : mistralCall host id v = some call) : call.id = id := by
  obtain ⟨function, _, made⟩ := Option.bind_eq_some_iff.mp made
  obtain ⟨name, _, made⟩ := Option.bind_eq_some_iff.mp made
  obtain ⟨arguments, _, same⟩ := Option.bind_eq_some_iff.mp made
  cases same
  rfl

/-! Calls numbered by place. -/

theorem map_filterMap_of {α β γ : Type} {g : α → Option β} {key : β → γ} {h : α → γ}
    (keeps : ∀ x b, g x = some b → key b = h x) (l : List α) :
    (l.filterMap g).map key = (l.filter fun x => (g x).isSome).map h := by
  induction l with
  | nil => rfl
  | cons x rest ih =>
    cases made : g x with
    | none => simp only [List.filterMap_cons,made,List.filter_cons,Option.isSome_none,Bool.false_eq_true,if_false,ih]
    | some b =>
      simp only [List.filterMap_cons,made,List.filter_cons,Option.isSome_some,if_true,List.map_cons,ih,keeps x b made]

section

variable {f : Host → String → Json → Option ToolCall} (keeps : ∀ id v call, f host id v = some call → call.id = id)
  (values : List Json)

include keeps

theorem ids_numbered : ids (numbered host start f values) =
    ((values.zipIdx.filter fun value => (f host (start ++ toString value.2) value.1).isSome).map Prod.snd).map
      (numberedText start) := by
  rw [ids,numbered,List.map_map]
  exact map_filterMap_of (fun value call made => keeps _ value.1 call made) values.zipIdx

theorem ids_numbered_nodup : (ids (numbered host start f values)).Nodup := by
  rw [ids_numbered keeps values]
  refine List.Nodup.map (numberedText_injective start) ?_
  have places : (values.zipIdx.map Prod.snd).Nodup := by
    rw [List.zipIdx_map_snd]
    exact List.nodup_range'
  exact places.sublist (List.filter_sublist.map _)

end

theorem callPlaces_nodup (items : List Json) : (callPlaces host items).Nodup := by
  have places : (items.zipIdx.map Prod.snd).Nodup := by
    rw [List.zipIdx_map_snd]
    exact List.nodup_range'
  exact places.sublist (List.filter_sublist.map _)

theorem ids_numbered_calls (items : List Json) :
    ids (numbered host start jsonToToolCall items) = (callPlaces host items).map (numberedText start) := by
  rw [ids_numbered fun _ _ _ => jsonToToolCall_id]
  simp only [jsonToToolCall_isSome,callPlaces]

/-! Calls numbered as they are found. -/

/-- The calls are numbered from zero on. -/
def InTurn (start : String) (calls : List ToolCall) : Prop :=
  ids calls = (List.range calls.length).map (numberedText start)

theorem InTurn.nodup {calls : List ToolCall} (inTurn : InTurn start calls) : (ids calls).Nodup := by
  rw [inTurn]
  exact List.nodup_range.map (numberedText_injective start)

theorem InTurn.snoc {calls : List ToolCall} (inTurn : InTurn start calls)
    (next : call.id = numberedText start calls.length) : InTurn start (calls ++ [call]) := by
  unfold InTurn at inTurn ⊢
  rw [ids,List.map_append,List.length_append,List.length_singleton,List.range_succ,List.map_append]
  rw [ids] at inTurn
  rw [inTurn,List.map_singleton,List.map_singleton,next]

theorem collect_inTurn (values : List Json) : InTurn start (collect host start values) := by
  suffices run : ∀ results, InTurn start results → InTurn start (values.foldl
      (fun results v => results ++ (jsonToToolCall host (start ++ toString results.length) v).toList) results) from
    run [] rfl
  induction values with
  | nil => exact fun _ inTurn => inTurn
  | cons v rest ih =>
    intro results inTurn
    rw [List.foldl_cons]
    refine ih _ ?_
    cases made : jsonToToolCall host (start ++ toString results.length) v with
    | none =>
      rw [Option.toList_none,List.append_nil]
      exact inTurn
    | some call => exact inTurn.snoc (jsonToToolCall_id made)

theorem qwenCalls_inTurn (fuel : Nat) (results : List ToolCall) (remaining : List Char) (inTurn : InTurn "qwen_" results) :
    InTurn "qwen_" (qwenCalls host fuel results remaining) := by
  induction fuel generalizing results remaining with
  | zero => exact inTurn
  | succ fuel ih =>
    rw [qwenCalls]
    split
    · exact inTurn
    · split
      · exact ih _ _ inTurn
      · exact ih _ _ (inTurn.snoc rfl)

/-! Calls numbered both ways. -/

/-- The numbers a block's calls get, `count` calls in. -/
def numbersOf (host : Host) (count : Nat) : Json → List Nat
  | .arr items => callPlaces host items
  | .obj fields => if isCall host (.obj fields) then [count] else []
  | _ => []

def numbersFrom (host : Host) : Nat → List Json → List Nat
  | _, [] => []
  | count, v :: rest => numbersOf host count v ++ numbersFrom host (count + callsIn host v) rest

theorem ids_llamaBlock (results : List ToolCall) (v : Json) : ids (llamaBlock host results v) =
    ids results ++ (numbersOf host results.length v).map (numberedText "ll_") := by
  cases v with
  | arr items =>
    rw [numbersOf,← ids_numbered_calls]
    exact List.map_append
  | obj fields =>
    have same : (jsonToToolCall host ("ll_" ++ toString results.length) (.obj fields)).isSome = isCall host (.obj fields) :=
      jsonToToolCall_isSome
    simp only [llamaBlock,numbersOf,← same]
    cases made : jsonToToolCall host ("ll_" ++ toString results.length) (.obj fields) with
    | none => simp
    | some call =>
      have named : call.id = numberedText "ll_" results.length := jsonToToolCall_id made
      simp [ids,named]
  | null | bool | num | str => simp [llamaBlock,numbersOf]

theorem numbersOf_length (count : Nat) (v : Json) : (numbersOf host count v).length = callsIn host v := by
  cases v with
  | obj fields =>
    simp only [numbersOf,callsIn]
    split <;> rfl
  | null | bool | num | str | arr => rfl

theorem llamaBlock_length (results : List ToolCall) (v : Json) :
    (llamaBlock host results v).length = results.length + callsIn host v := by
  have size : (ids (llamaBlock host results v)).length = _ := congrArg List.length (ids_llamaBlock results v)
  simpa only [ids,List.length_append,List.length_map,numbersOf_length] using size

theorem ids_llamaBlocks (results : List ToolCall) (values : List Json) : ids (values.foldl (llamaBlock host) results) =
    ids results ++ (numbersFrom host results.length values).map (numberedText "ll_") := by
  induction values generalizing results with
  | nil => simp [numbersFrom]
  | cons v rest ih =>
    rw [List.foldl_cons,ih,ids_llamaBlock,llamaBlock_length,numbersFrom,List.map_append,List.append_assoc]

/-! The calls of one text are told apart exactly when the blocks are apart. -/

theorem callsOf_cons (v : Json) (blocks : List Json) :
    callsOf host (v :: blocks) = callsIn host v + callsOf host blocks := rfl

theorem mem_numbersFrom {n count : Nat} {blocks : List Json} : n ∈ numbersFrom host count blocks ↔
    ∃ before v after, blocks = before ++ v :: after ∧ n ∈ numbersOf host (count + callsOf host before) v := by
  induction blocks generalizing count with
  | nil => simp [numbersFrom]
  | cons v rest ih =>
    rw [numbersFrom,List.mem_append,ih]
    constructor
    · rintro (own | ⟨before, u, after, rfl, later⟩)
      · exact ⟨[], v, rest, rfl, own⟩
      · exact ⟨v :: before, u, after, rfl, by rwa [callsOf_cons,← Nat.add_assoc]⟩
    · rintro ⟨before, u, after, split, member⟩
      cases before with
      | nil =>
        cases split
        exact .inl member
      | cons first before =>
        cases split
        exact .inr ⟨before, u, after, rfl, by rwa [callsOf_cons,← Nat.add_assoc] at member⟩

theorem mem_numbersOf_obj {n count : Nat} {fields : List (String × Json)} :
    n ∈ numbersOf host count (.obj fields) ↔ isCall host (.obj fields) = true ∧ n = count := by
  rw [numbersOf]
  split
  · next call => simp [call]
  · next other => simp [other]

theorem numbersFrom_arr {n count : Nat} {blocks items : List Json} (inside : .arr items ∈ blocks)
    (place : n ∈ callPlaces host items) : n ∈ numbersFrom host count blocks := by
  obtain ⟨before, after, split⟩ := List.append_of_mem inside
  exact mem_numbersFrom.mpr ⟨before, .arr items, after, split, place⟩

theorem numbersFrom_obj {count : Nat} {before after : List Json} {fields : List (String × Json)}
    (call : isCall host (.obj fields) = true) :
    count + callsOf host before ∈ numbersFrom host count (before ++ .obj fields :: after) :=
  mem_numbersFrom.mpr ⟨before, .obj fields, after, rfl, mem_numbersOf_obj.mpr ⟨call, rfl⟩⟩

/-- What the numbers of a first block say of it. -/
theorem Apart.head {count : Nat} {v : Json} {rest : List Json} (apart : Apart host count (v :: rest)) :
    List.Disjoint (numbersOf host count v) (numbersFrom host (count + callsIn host v) rest) := by
  intro n own later
  obtain ⟨before, u, after, rfl, other⟩ := mem_numbersFrom.mp later
  have inside : u ∈ before ++ u :: after := List.mem_append_right before List.mem_cons_self
  cases v with
  | arr items =>
    cases u with
    | arr items' => exact (List.pairwise_cons.mp apart.arrays).1 _ inside items items' rfl rfl own other
    | obj fields =>
      obtain ⟨call, rfl⟩ := mem_numbersOf_obj.mp other
      refine apart.objects (.arr items :: before) fields after rfl call items List.mem_cons_self ?_
      rwa [callsOf_cons,← Nat.add_assoc]
    | null | bool | num | str => cases other
  | obj fields =>
    obtain ⟨call, rfl⟩ := mem_numbersOf_obj.mp own
    cases u with
    | arr items => exact apart.objects [] fields _ rfl call items (List.mem_cons_of_mem _ inside) other
    | obj others =>
      -- An object's number counts the object itself.
      obtain ⟨_, same⟩ := mem_numbersOf_obj.mp other
      rw [callsIn,if_pos call] at same
      omega
    | null | bool | num | str => cases other
  | null | bool | num | str => cases own

theorem apart_cons {count : Nat} {v : Json} {rest : List Json} : Apart host count (v :: rest) ↔
    List.Disjoint (numbersOf host count v) (numbersFrom host (count + callsIn host v) rest) ∧
      Apart host (count + callsIn host v) rest := by
  constructor
  · intro apart
    refine ⟨apart.head, apart.arrays.tail, ?_⟩
    intro before fields after split call items inside
    rw [Nat.add_assoc,← callsOf_cons]
    exact apart.objects (v :: before) fields after (by rw [split,List.cons_append]) call items
      (List.mem_cons_of_mem v inside)
  · rintro ⟨disjoint, apart⟩
    constructor
    · refine List.pairwise_cons.mpr ⟨?_, apart.arrays⟩
      rintro _ inside items items' rfl rfl n own other
      exact disjoint own (numbersFrom_arr inside other)
    · intro before fields after split call items inside place
      cases before with
      | nil =>
        cases split
        obtain inside | inside := List.mem_cons.mp inside
        · cases inside
        · exact disjoint (mem_numbersOf_obj.mpr ⟨call, rfl⟩) (numbersFrom_arr inside place)
      | cons first before =>
        cases split
        rw [callsOf_cons,← Nat.add_assoc] at place
        obtain rfl | inside := List.mem_cons.mp inside
        · exact disjoint place (numbersFrom_obj call)
        · exact apart.objects before fields after rfl call items inside place

theorem numbersOf_nodup (count : Nat) (v : Json) : (numbersOf host count v).Nodup := by
  cases v with
  | arr items => exact callPlaces_nodup items
  | obj fields =>
    rw [numbersOf]
    split
    · exact List.nodup_singleton count
    · exact List.nodup_nil
  | null | bool | num | str => exact List.nodup_nil

theorem numbersFrom_nodup_iff {count : Nat} {blocks : List Json} :
    (numbersFrom host count blocks).Nodup ↔ Apart host count blocks := by
  induction blocks generalizing count with
  | nil => exact ⟨fun _ => ⟨.nil, by simp⟩, fun _ => .nil⟩
  | cons v rest ih =>
    rw [numbersFrom,List.nodup_append',ih,apart_cons]
    simp only [numbersOf_nodup,true_and,and_comm]

/-! Every parser. -/

theorem llama_nodup_iff {raw : String} : (ids (parseLlama3Json host raw)).Nodup ↔ Apart host 0 (blockValues host raw) := by
  have named : ids ((blockValues host raw).foldl (llamaBlock host) []) = _ := ids_llamaBlocks [] (blockValues host raw)
  rw [parseLlama3Json,← blockValues,named,← numbersFrom_nodup_iff]
  exact List.nodup_map_iff (numberedText_injective "ll_")

theorem numbered_calls_nodup (values : List Json) : (ids (numbered host start jsonToToolCall values)).Nodup :=
  ids_numbered_nodup (fun _ _ _ => jsonToToolCall_id) values

/-- A test of the value comes before the call. -/
theorem numbered_if_nodup (p : Json → Bool) (values : List Json) :
    (ids (numbered host start (fun host id v => if p v then jsonToToolCall host id v else none) values)).Nodup := by
  refine ids_numbered_nodup ?_ values
  intro id v call made
  split at made
  · exact jsonToToolCall_id made
  · cases made

theorem parseTagged_nodup (opening closing raw : String) : (ids (parseTagged host opening closing start raw)).Nodup :=
  (collect_inTurn _).nodup

theorem parseHermes_nodup (raw : String) : (ids (parseHermes host raw)).Nodup := by
  unfold parseHermes
  split
  · exact numbered_calls_nodup _
  · exact List.nodup_nil

theorem parseMistral_nodup (raw : String) : (ids (parseMistral host raw)).Nodup := by
  unfold parseMistral
  split
  · exact ids_numbered_nodup (fun _ _ _ => mistralCall_id) _
  · exact numbered_if_nodup (fun v => (v.get "function").isSome) _

theorem parseGlm45_nodup (raw : String) : (ids (parseGlm45 host raw)).Nodup := numbered_if_nodup _ _

theorem parseGlm47_nodup (raw : String) : (ids (parseGlm47 host raw)).Nodup := by
  unfold parseGlm47
  split
  · refine ids_numbered_nodup ?_ _
    intro id v call made
    split at made
    · exact jsonToToolCall_id made
    · cases made
  · exact parseGlm45_nodup raw

theorem parseKimiK2_nodup (raw : String) : (ids (parseKimiK2 host raw)).Nodup := by
  unfold parseKimiK2
  split
  · exact numbered_calls_nodup _
  · split
    · exact numbered_calls_nodup _
    · exact numbered_calls_nodup _

theorem parseQwen_nodup (raw : String) : (ids (parseQwen host raw)).Nodup := by
  unfold parseQwen
  have found : (ids (if containsText raw "✿FUNCTION✿" then qwenCalls host (raw.toList.length + 1) [] raw.toList
      else [])).Nodup := by
    split
    · exact (qwenCalls_inTurn _ [] _ rfl).nodup
    · exact List.nodup_nil
  generalize (if containsText raw "✿FUNCTION✿" then qwenCalls host (raw.toList.length + 1) [] raw.toList else []) = results
    at found ⊢
  dsimp only
  split
  · exact numbered_calls_nodup _
  · exact found

/-- All parsers but one number their calls apart, whatever the text. -/
theorem parse_nodup {parser : ToolCallParser} (other : parser ≠ .llama3Json) (raw : String) :
    (ids (parser.parse host raw)).Nodup := by
  cases parser with
  | hermes => exact parseHermes_nodup raw
  | deepSeekV3 => exact numbered_calls_nodup _
  | deepSeekV31 | longcat | qwen3Coder => exact parseTagged_nodup _ _ raw
  | mistral => exact parseMistral_nodup raw
  | llama3Json => exact absurd rfl other
  | glm45 => exact parseGlm45_nodup raw
  | glm47 => exact parseGlm47_nodup raw
  | kimiK2 => exact parseKimiK2_nodup raw
  | qwen => exact parseQwen_nodup raw

theorem firstCalls_nodup {raw : String} (names : List String)
    (each : ∀ name parser, getParser name = some parser → (ids (parser.parse host raw)).Nodup) :
    (ids (firstCalls host raw names)).Nodup := by
  induction names with
  | nil => exact List.nodup_nil
  | cons name rest ih =>
    rw [firstCalls]
    split
    · exact ih
    · next parser registered =>
      split
      · exact ih
      · exact each name parser registered

/-- Every registered parser, and all of them in turn, tell a text's calls apart exactly when its code
blocks, as Llama's parser reads them, are apart. -/
theorem ids_distinct_iff (host : Host) (raw : String) :
    ((∀ name parser, getParser name = some parser → (ids (parser.parse host raw)).Nodup) ∧
      (ids (tryAllParsers host raw)).Nodup) ↔ Apart host 0 (blockValues host raw) := by
  constructor
  · rintro ⟨each, _⟩
    exact llama_nodup_iff.mp (each "llama3_json" .llama3Json (by decide))
  · intro apart
    have each : ∀ name parser, getParser name = some parser → (ids (parser.parse host raw)).Nodup := by
      intro name parser _
      by_cases llama : parser = .llama3Json
      · rw [llama]
        exact llama_nodup_iff.mpr apart
      · exact parse_nodup llama raw
    exact ⟨each, firstCalls_nodup _ each⟩

/-- Two code blocks, each an array of one call. -/
def twoArrays : String := "```json\n[\x7b\"name\":\"a\"\x7d]\n```\n```json\n[\x7b\"name\":\"b\"\x7d]\n```"

theorem two_arrays_collide : ids (parseLlama3Json sampleHost twoArrays) = ["ll_0", "ll_0"] ∧
    ¬ ((∀ name parser, getParser name = some parser → (ids (parser.parse sampleHost twoArrays)).Nodup) ∧
      (ids (tryAllParsers sampleHost twoArrays)).Nodup) := by
  have twice : ids (parseLlama3Json sampleHost twoArrays) = ["ll_0", "ll_0"] := by decide +kernel
  refine ⟨twice, ?_⟩
  rintro ⟨each, _⟩
  have distinct := each "llama3_json" .llama3Json (by decide)
  rw [ToolCallParser.parse,twice] at distinct
  exact absurd distinct (by decide)

end

end Zaion.Parsers
