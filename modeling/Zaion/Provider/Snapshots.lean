import Zaion.Lib.JsonText
import Zaion.Provider.OpenAiStream

/-! What a stream shows and what it records, and the events of the responses API, where a text that was sent in deltas
comes again in one piece. -/
namespace Zaion.Provider.OpenAi

open Lib

namespace StreamState

/-- What was shown is what there is. -/
def Recorded (s : StreamState) : Prop := s.fullContent = String.join s.shown

variable {s s' : StreamState}

theorem Recorded.appendStreamText (recorded : s.Recorded) (text : String) : (s.appendStreamText text).Recorded := by
  unfold StreamState.appendStreamText
  split
  · exact recorded
  · simp only [Recorded,String.join_append,String.join_cons,String.join_nil,String.append_empty]
    rw [recorded]

theorem Recorded.applyFinalTextSnapshot (recorded : s.Recorded) (text : String) : (s.applyFinalTextSnapshot text).Recorded := by
  unfold StreamState.applyFinalTextSnapshot
  split
  · exact recorded.appendStreamText _
  · exact recorded

theorem Recorded.applyUsage (recorded : s.Recorded) (usage : Option OpenAiUsage) : (s.applyUsage usage).Recorded := by
  cases usage <;> exact recorded

theorem Recorded.finished (recorded : s.Recorded) (reason : FinishReason) : { s with finishReason := reason }.Recorded := recorded

theorem Recorded.named (recorded : s.Recorded) (name : String) : { s with modelName := name }.Recorded := recorded

theorem Recorded.applyChoice (recorded : s.Recorded) (choice : OpenAiStreamChoice) : (s.applyChoice choice).Recorded := by
  unfold StreamState.applyChoice
  cases (choice.delta.content.or choice.delta.audioContent).or choice.delta.reasoningContent with
  | none => cases choice.finishReason <;> exact recorded
  | some token =>
    cases choice.finishReason with
    | none => exact recorded.appendStreamText token
    | some reason => exact (recorded.finished (parseOpenaiFinishReason (some reason))).appendStreamText token

theorem Recorded.applyChunk (recorded : s.Recorded) (chunk : OpenAiStreamChunk) : (s.applyChunk chunk).Recorded := by
  have counted := (recorded.named (chunk.model.getD s.modelName)).applyUsage chunk.usage
  unfold StreamState.applyChunk
  cases chunk.choices with
  | nil => exact counted
  | cons choice _ => exact counted.applyChoice choice

theorem Recorded.applyFull (recorded : s.Recorded) (full : OpenAiResponse) : (s.applyFull full).Recorded := by
  have counted := recorded.applyUsage full.usage
  unfold StreamState.applyFull
  cases full.choices with
  | nil => exact counted
  | cons choice _ =>
    have snapshot {t : StreamState} (shown : t.Recorded) (text : String) :
        (if t.fullContent = "" then t.applyFinalTextSnapshot text else t).Recorded := by
      split
      · exact shown.applyFinalTextSnapshot text
      · exact shown
    obtain ⟨message, reason⟩ := choice
    cases reason with
    | none => exact snapshot counted (extractTextFromOpenaiMessage message)
    | some reason =>
      exact snapshot (counted.finished (parseOpenaiFinishReason (some reason))) (extractTextFromOpenaiMessage message)

theorem Recorded.applyCompleted (recorded : s.Recorded) (response : Json) : (s.applyCompleted response).Recorded := by
  unfold StreamState.applyCompleted
  cases extractResponsesOutputText response with
  | none => exact recorded
  | some text => exact (recorded.named (((response.get "model").bind Json.asStr).getD s.modelName)).applyFinalTextSnapshot text

theorem Recorded.applyEvent (recorded : s.Recorded) {event : Json} (applied : s.applyEvent event = .ok s') : s'.Recorded := by
  unfold StreamState.applyEvent at applied
  split at applied
  · split at applied <;> cases applied
    · exact recorded.appendStreamText _
    · exact recorded
  · split at applied <;> cases applied
    · exact recorded.applyFinalTextSnapshot _
    · exact recorded
  · split at applied <;> cases applied
    · exact recorded.applyCompleted _
    · exact recorded
  · cases applied
  · cases applied
    exact recorded

theorem Recorded.applyData (recorded : s.Recorded) {serde : Serde} {data : String} (applied : s.applyData serde data = .ok s') :
    s'.Recorded := by
  have chunked (decoded : Option OpenAiStreamChunk) :
      (decoded.elim s s.applyChunk).Recorded := by
    cases decoded with
    | none => exact recorded
    | some chunk => exact recorded.applyChunk chunk
  have whole {t : StreamState} (shown : t.Recorded) (decoded : Option OpenAiResponse) :
      (decoded.elim t t.applyFull).Recorded := by
    cases decoded with
    | none => exact shown
    | some full => exact shown.applyFull full
  have read := whole (chunked (serde.chunk data)) (serde.response data)
  have turned : s.applyData serde data = (serde.value data).toOption.elim
      (.ok ((serde.response data).elim ((serde.chunk data).elim s s.applyChunk) ((serde.chunk data).elim s s.applyChunk).applyFull))
      ((serde.response data).elim ((serde.chunk data).elim s s.applyChunk)
        ((serde.chunk data).elim s s.applyChunk).applyFull).applyEvent := by
    unfold StreamState.applyData
    cases serde.chunk data <;> cases serde.response data <;> cases serde.value data <;> rfl
  rw [turned] at applied
  cases value : serde.value data with
  | ok event =>
    rw [value] at applied
    exact read.applyEvent applied
  | error e =>
    rw [value] at applied
    cases applied
    exact read

theorem Recorded.readLines {serde : Serde} {lines : List (Except String String)} (recorded : s.Recorded)
    (read : s.readLines serde lines = .ok s') : s'.Recorded := by
  induction lines generalizing s with
  | nil =>
    cases read
    exact recorded
  | cons line rest ih =>
    cases line with
    | error e => cases read
    | ok line =>
      rw [StreamState.readLines] at read
      split at read
      · exact ih recorded read
      · dsimp only at read
        split at read
        · cases read
          exact recorded
        · split at read
          · exact ih (recorded.applyData ‹_›) read
          · cases read

/-- A text that is not longer than what there is adds nothing. -/
theorem applyFinalTextSnapshot_short {text : String} (short : text.length ≤ s.fullContent.length) :
    s.applyFinalTextSnapshot text = s := by
  unfold applyFinalTextSnapshot
  split
  · rename_i begins
    have size : s.fullContent.toList.length ≤ text.toList.length := begins.length_le
    rw [String.length_toList,String.length_toList] at size
    have rest : text.toList.drop s.fullContent.toList.length = [] :=
      List.drop_eq_nil_of_le (by rw [String.length_toList,String.length_toList]; exact short)
    rw [rest,appendStreamText,if_pos rfl]
  · rfl

end StreamState

/-- What the events of the responses API say. -/
inductive Event where
  | delta (text : String)
  | done (text : String)
  | completed (text : String)

namespace Event

def deltas (events : List Event) : List String :=
  events.filterMap fun
    | .delta text => some text
    | _ => none

/-- The event as JSON; the text of a response is what is extracted from it. -/
def SaidBy (event : Json) : Event → Prop
  | delta text => event.get "type" = some (.str "response.output_text.delta") ∧ event.get "delta" = some (.str text)
  | done text => event.get "type" = some (.str "response.output_text.done") ∧ event.get "text" = some (.str text)
  | completed text => event.get "type" = some (.str "response.completed") ∧
      ∃ response, event.get "response" = some response ∧ (extractResponsesOutputText response).getD "" = text

end Event

/-- The deltas are the parts, one after the other; the text of a part comes again after its deltas, and the whole text
after all of them. -/
structure Speaks (parts : List (List String)) (events : List Event) : Prop where
  deltas : Event.deltas events = parts.flatten
  done : ∀ before text after, events = before ++ .done text :: after →
    (∃ earlier part later, parts = earlier ++ part :: later ∧ text = String.join part ∧
      earlier.flatten ++ part <+: Event.deltas before) ∨
    (Event.deltas before = parts.flatten ∧ text = String.join parts.flatten)
  completed : ∀ before text after, events = before ++ .completed text :: after →
    Event.deltas before = parts.flatten ∧ text = String.join parts.flatten

/-- Chunks and whole answers have choices. -/
def Serde.ChoicesRequired (serde : Serde) : Prop := ∀ data fields,
  serde.value data = .ok (.obj fields) → Json.lookup "choices" fields = none → serde.chunk data = none ∧ serde.response data = none

/-- The line is an event of the responses API. -/
structure EventLine (serde : Serde) (line : String) (event : Json) : Prop where
  decodes : ∃ data fields, line = "data: " ++ data ∧ data ≠ "[DONE]" ∧ serde.value data = .ok (.obj fields) ∧
    Json.lookup "choices" fields = none ∧ event = .obj fields

def textTypes : List String :=
  ["response.output_text.delta", "response.output_text.done", "response.completed", "response.failed"]

/-- The lines send the events, among lines without data and events that say nothing about the text. -/
inductive Tells (serde : Serde) : List Event → List (Except String String) → Prop where
  | closed : Tells serde [] []
  | done (rest) : Tells serde [] (.ok "data: [DONE]" :: rest)
  | skip {events rest} (line : String) (other : startsWithText line "data: " = false) (later : Tells serde events rest) :
    Tells serde events (.ok line :: rest)
  | aside {events rest} (line : String) (json : Json) (here : EventLine serde line json)
    (other : ∀ type ∈ textTypes, json.get "type" ≠ some (.str type)) (later : Tells serde events rest) :
    Tells serde events (.ok line :: rest)
  | event {events rest} (line : String) (json : Json) (event : Event) (here : EventLine serde line json)
    (said : event.SaidBy json) (later : Tells serde events rest) : Tells serde (event :: events) (.ok line :: rest)

section

variable {serde : Serde} {s : StreamState} {json : Json} {event : Event} {events before : List Event} {text : String} {n : Nat}

/-- An event line is no chunk and no whole answer. -/
theorem EventLine.readLines (required : serde.ChoicesRequired) {line : String} (here : EventLine serde line json)
    {s' : StreamState} (applied : s.applyEvent json = .ok s') (rest : List (Except String String)) :
    s.readLines serde (.ok line :: rest) = s'.readLines serde rest := by
  obtain ⟨data, fields, rfl, open_, value, noChoices, rfl⟩ := here.decodes
  obtain ⟨chunk, whole⟩ := required data fields value noChoices
  have starts : startsWithText ("data: " ++ data) "data: " = true := by simp [startsWithText]
  have cut : String.ofList (("data: " ++ data).toList.drop 6) = data := by simp
  have taken : s.applyData serde data = .ok s' := by simp only [StreamState.applyData,chunk,whole,value,applied]
  rw [StreamState.readLines]
  simp only [starts,cut,taken,if_neg open_]
  simp

theorem aside_applyEvent (other : ∀ type ∈ textTypes, json.get "type" ≠ some (.str type)) (s : StreamState) :
    s.applyEvent json = .ok s := by
  have typed (type : String) (bound : (json.get "type").bind Json.asStr = some type) : json.get "type" = some (.str type) := by
    obtain ⟨value, found, text⟩ := Option.bind_eq_some_iff.mp bound
    cases value with
    | str word => rw [found,Option.some.inj text]
    | _ => cases text
  unfold StreamState.applyEvent
  split
  · exact absurd (typed _ ‹_›) (other _ (by decide))
  · exact absurd (typed _ ‹_›) (other _ (by decide))
  · exact absurd (typed _ ‹_›) (other _ (by decide))
  · exact absurd (typed _ ‹_›) (other _ (by decide))
  · rfl

namespace Event

/-- What an event adds to the text. -/
def added : Event → String
  | delta text => text
  | done _ => ""
  | completed _ => ""

/-- What is repeated is not longer than what has been said. -/
def Covers (n : Nat) : Event → Prop
  | delta _ => True
  | done text => text.length ≤ n
  | completed text => text.length ≤ n

def Covered : Nat → List Event → Prop
  | _, [] => True
  | n, event :: rest => event.Covers n ∧ Covered (n + event.added.length) rest

theorem join_deltas (events : List Event) : String.join (deltas events) = String.join (events.map added) := by
  induction events with
  | nil => rfl
  | cons event rest ih =>
    cases event with
    | delta text => simpa [deltas,added] using ih
    | done text => simpa [deltas,added] using ih
    | completed text => simpa [deltas,added] using ih

theorem applyCompleted_covered {response : Json} (short : ((extractResponsesOutputText response).getD "").length ≤ s.fullContent.length) :
    (s.applyCompleted response).fullContent = s.fullContent ∧ (s.applyCompleted response).entries = s.entries := by
  unfold StreamState.applyCompleted
  cases found : extractResponsesOutputText response with
  | none => exact ⟨rfl, rfl⟩
  | some text =>
    rw [found] at short
    have same := @StreamState.applyFinalTextSnapshot_short
      { s with modelName := ((response.get "model").bind Json.asStr).getD s.modelName } text short
    dsimp only
    rw [same]
    exact ⟨rfl, rfl⟩

/-- One event of the stream. -/
theorem SaidBy.applyEvent (said : event.SaidBy json) (covers : event.Covers s.fullContent.length) :
    ∃ s', s.applyEvent json = .ok s' ∧ s'.fullContent = s.fullContent ++ event.added ∧ s'.entries = s.entries := by
  cases event with
  | delta text =>
    obtain ⟨type, delta⟩ := said
    refine ⟨s.appendStreamText text, ?_, s.appendStreamText_fullContent text, s.appendStreamText_entries text⟩
    simp [StreamState.applyEvent,type,delta,Json.asStr]
  | done text =>
    obtain ⟨type, repeated⟩ := said
    refine ⟨s, ?_, by simp [added], rfl⟩
    simp [StreamState.applyEvent,type,repeated,Json.asStr,StreamState.applyFinalTextSnapshot_short covers]
  | completed text =>
    obtain ⟨type, response, found, rfl⟩ := said
    obtain ⟨content, entries⟩ := applyCompleted_covered covers
    exact ⟨s.applyCompleted response, by simp [StreamState.applyEvent,type,found,Json.asStr], by simp [content,added], entries⟩

end Event

/-- All of them. -/
theorem Tells.readLines (required : serde.ChoicesRequired) {lines : List (Except String String)} (tells : Tells serde events lines)
    (covered : Event.Covered s.fullContent.length events) :
    ∃ s', s.readLines serde lines = .ok s' ∧ s'.fullContent = s.fullContent ++ String.join (events.map Event.added) ∧
      s'.entries = s.entries := by
  induction tells generalizing s with
  | closed => exact ⟨s, rfl, by simp, rfl⟩
  | done rest =>
    have starts : startsWithText "data: [DONE]" "data: " = true := by decide
    exact ⟨s, by simp [StreamState.readLines,starts], by simp, rfl⟩
  | skip line other later ih =>
    rw [StreamState.readLines,if_pos other]
    exact ih covered
  | aside line json here other later ih =>
    rw [here.readLines required (aside_applyEvent other s)]
    exact ih covered
  | event line json event here said later ih =>
    obtain ⟨covers, covered⟩ := covered
    obtain ⟨s₁, applied, content, entries⟩ := said.applyEvent covers
    rw [here.readLines required applied]
    obtain ⟨s₂, read, content', entries'⟩ := ih (by rwa [content,String.length_append])
    refine ⟨s₂, read, ?_, entries'.trans entries⟩
    rw [content',content,List.map_cons,String.join_cons,String.append_assoc]

theorem covered_of (covers : ∀ before event after, events = before ++ event :: after →
    event.Covers (n + (String.join (Event.deltas before)).length)) : Event.Covered n events := by
  induction events generalizing n with
  | nil => trivial
  | cons event rest ih =>
    refine ⟨by simpa [Event.deltas] using covers [] event rest rfl, ih fun before later after same => ?_⟩
    have here := covers (event :: before) later after (by rw [same,List.cons_append])
    rwa [Event.join_deltas,List.map_cons,String.join_cons,String.length_append,← Nat.add_assoc,← Event.join_deltas] at here

theorem join_length_le {l l' : List String} (begins : l <+: l') : (String.join l).length ≤ (String.join l').length := by
  obtain ⟨rest, rfl⟩ := begins
  rw [String.join_append,String.length_append]
  omega

theorem Speaks.covered {parts : List (List String)} (speaks : Speaks parts events) : Event.Covered 0 events := by
  refine covered_of fun before event after same => ?_
  rw [Nat.zero_add]
  cases event with
  | delta text => trivial
  | done text =>
    rcases speaks.done before text after same with ⟨earlier, part, later, _, rfl, said⟩ | ⟨all, rfl⟩
    · have whole := join_length_le said
      rw [String.join_append,String.length_append] at whole
      exact Nat.le_trans (Nat.le_add_left _ _) whole
    · rw [all]
      exact Nat.le_refl _
  | completed text =>
    obtain ⟨all, rfl⟩ := speaks.completed before text after same
    rw [all]
    exact Nat.le_refl _

/-- The deltas, once and whole, or nothing to see. -/
theorem completeStream_speaks (required : serde.ChoicesRequired) {parts : List (List String)} {lines : List (Except String String)}
    (speaks : Speaks parts events) (tells : Tells serde events lines) (model : String) :
    ∃ r, r.content = String.join parts.flatten ∧ completeStream serde model (.body lines) =
      if trim (String.join parts.flatten) = "" then .error StreamState.noContent else .ok r := by
  obtain ⟨s, read, content, entries⟩ := @Tells.readLines serde (.start model) events required lines tells speaks.covered
  have whole : s.fullContent = String.join parts.flatten := by
    rw [content,← Event.join_deltas,speaks.deltas]
    exact String.empty_append
  have noCalls : intoToolCalls serde s.entries = [] := by rw [entries]; rfl
  refine ⟨⟨s.fullContent, s.modelName, s.inputTokens, s.outputTokens, s.cacheReadTokens, s.cacheWriteTokens, [],
    s.finishReason, "", ""⟩, whole, ?_⟩
  simp [completeStream,read,StreamState.finish,noCalls,whole]

/-- What was shown is what is recorded; and the text sent in deltas is recorded once and whole, however often it is
repeated, if there is anything to see of it. -/
theorem stream_exact (required : serde.ChoicesRequired) (model : String) (lines : List (Except String String)) :
    (∀ r, completeStream serde model (.body lines) = .ok r →
      ∃ s, StreamState.readLines serde (.start model) lines = .ok s ∧ r.content = String.join s.shown) ∧
    ∀ parts events, Speaks parts events → Tells serde events lines →
      (trim (String.join parts.flatten) ≠ "" →
        ∃ r, completeStream serde model (.body lines) = .ok r ∧ r.content = String.join parts.flatten) ∧
      (trim (String.join parts.flatten) = "" → completeStream serde model (.body lines) = .error StreamState.noContent) := by
  refine ⟨fun r answered => ?_, fun parts events speaks tells => ?_⟩
  · simp only [completeStream] at answered
    split at answered
    · cases answered
    · rename_i s read
      have recorded : s.Recorded := @StreamState.Recorded.readLines (.start model) s serde lines rfl read
      refine ⟨s, read, ?_⟩
      simp only [StreamState.finish] at answered
      split at answered
      · cases answered
      · cases answered
        exact recorded
  · obtain ⟨r, content, answer⟩ := completeStream_speaks required speaks tells model
    refine ⟨fun visible => ⟨r, ?_, content⟩, fun blank => ?_⟩
    · rw [answer,if_neg visible]
    · rw [answer,if_pos blank]

/-- Decoders of events: they read JSON, and events are no chunks and no answers. -/
def eventSerde : Serde where
  value text := match JsonText.ofText text with
    | some value => .ok value
    | none => .error "expected value at line 1 column 1"
  chunk _ := none
  response _ := none
  responseOfValue _ := .error "missing field choices"

theorem eventSerde_choicesRequired : eventSerde.ChoicesRequired := fun _ _ _ _ => ⟨rfl, rfl⟩

def deltaEvent (text : String) : Json := .obj [("type", .str "response.output_text.delta"), ("delta", .str text)]
def doneEvent (text : String) : Json := .obj [("type", .str "response.output_text.done"), ("text", .str text)]
def completedEvent (text : String) : Json :=
  .obj [("type", .str "response.completed"), ("response", .obj [("output_text", .str text)])]

def Event.toJson : Event → Json
  | delta text => deltaEvent text
  | done text => doneEvent text
  | completed text => completedEvent text

def eventLine (json : Json) : String := "data: " ++ JsonText.toText json

theorem eventLine_reads {fields : List (String × Json)} (exact : (Json.obj fields).exact = true)
    (noChoices : Json.lookup "choices" fields = none) : EventLine eventSerde (eventLine (.obj fields)) (.obj fields) := by
  refine ⟨JsonText.toText (.obj fields), fields, rfl, fun mark => ?_, ?_, noChoices, rfl⟩
  · have letters := congrArg String.toList mark
    rw [JsonText.toText,String.toList_ofList,JsonText.print] at letters
    exact absurd (List.cons.inj letters).1 (by decide)
  · simp only [eventSerde,JsonText.ofText_toText exact]

/-- The lines of events that carry their text. -/
theorem tells_events (events : List Event) (told : ∀ text, .completed text ∈ events → text ≠ "") :
    Tells eventSerde events (events.map fun event => .ok (eventLine event.toJson)) := by
  induction events with
  | nil => exact .closed
  | cons event rest ih =>
    have later := ih fun text member => told text (List.mem_cons_of_mem _ member)
    refine .event _ event.toJson event ?_ ?_ later
    · cases event <;> exact eventLine_reads (by simp [Json.exact,Json.exactFields]) rfl
    · cases event with
      | delta text => exact ⟨rfl, rfl⟩
      | done text => exact ⟨rfl, rfl⟩
      | completed text =>
        have filled := told text List.mem_cons_self
        refine ⟨rfl, .obj [("output_text", .str text)], rfl, ?_⟩
        simp [extractResponsesOutputText,Json.get,Json.lookup,Json.asStr,Option.filter,filled]

/-- Two parts, each repeated when it is done, and then the whole. -/
def helloEvents : List Event :=
  [.delta "Hel", .delta "lo", .done "Hello", .delta " you", .done " you", .completed "Hello you"]

theorem hello_speaks : Speaks [["Hel", "lo"], [" you"]] helloEvents := by
  constructor
  · rfl
  · intro before text after same
    rcases before with _ | ⟨_, _ | ⟨_, _ | ⟨_, _ | ⟨_, _ | ⟨_, _ | ⟨_, _⟩⟩⟩⟩⟩⟩ <;>
      simp only [helloEvents,List.nil_append,List.cons_append,List.cons.injEq,reduceCtorEq,false_and,and_false,
        Event.done.injEq] at same
    · obtain ⟨rfl, rfl, rfl, _⟩ := same
      exact .inl ⟨[], ["Hel", "lo"], [[" you"]], rfl, by decide, by decide⟩
    · obtain ⟨rfl, rfl, rfl, rfl, rfl, _⟩ := same
      exact .inl ⟨[["Hel", "lo"]], [" you"], [], rfl, by decide, by decide⟩
    all_goals simp at same
  · intro before text after same
    rcases before with _ | ⟨_, _ | ⟨_, _ | ⟨_, _ | ⟨_, _ | ⟨_, _ | ⟨_, _⟩⟩⟩⟩⟩⟩ <;>
      simp only [helloEvents,List.nil_append,List.cons_append,List.cons.injEq,reduceCtorEq,false_and,and_false,
        Event.completed.injEq] at same
    · obtain ⟨rfl, rfl, rfl, rfl, rfl, rfl, _⟩ := same
      exact ⟨by decide, by decide⟩
    all_goals simp at same

theorem hello_exact : ∃ r, completeStream eventSerde "m" (.body (helloEvents.map fun event => .ok (eventLine event.toJson))) = .ok r ∧
    r.content = "Hello you" :=
  ((stream_exact eventSerde_choicesRequired "m" _).2 _ _ hello_speaks (tells_events helloEvents (by simp [helloEvents]))).1
    (by decide)

def blankEvents : List Event := [.delta " ", .done " "]

theorem blank_speaks : Speaks [[" "]] blankEvents := by
  constructor
  · rfl
  · intro before text after same
    rcases before with _ | ⟨_, _ | ⟨_, _⟩⟩ <;>
      simp only [blankEvents,List.nil_append,List.cons_append,List.cons.injEq,reduceCtorEq,false_and,Event.done.injEq] at same
    · obtain ⟨rfl, rfl, _⟩ := same
      exact .inl ⟨[], [" "], [], rfl, by decide, by decide⟩
    · simp at same
  · intro before text after same
    rcases before with _ | ⟨_, _ | ⟨_, _⟩⟩ <;>
      simp [blankEvents] at same

/-- A blank text is sent, and no text comes back. -/
theorem blank_refused : ¬ ∀ parts events, Speaks parts events → ∀ lines, Tells eventSerde events lines →
    ∃ r, completeStream eventSerde "m" (.body lines) = .ok r ∧ r.content = String.join parts.flatten := by
  intro every
  have tells := tells_events blankEvents (by simp [blankEvents])
  obtain ⟨r, answered, _⟩ := every _ _ blank_speaks _ tells
  obtain ⟨_, _, answer⟩ := completeStream_speaks eventSerde_choicesRequired blank_speaks tells "m"
  rw [answer,if_pos (by decide)] at answered
  cases answered

end

end Zaion.Provider.OpenAi
