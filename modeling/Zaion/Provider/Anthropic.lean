import Zaion.Lib.Tree
import Zaion.Provider.OpenAi

/-! The Anthropic provider: one decoder for an answer sent as one body, and another that puts it
together from the events of a stream, block by block. Only the stream keeps the thinking and its
signature, drops a tool call without an id and corrects a finish reason that does not name the
tool calls. -/
namespace Zaion.Provider.Anthropic

open Lib

structure AnthropicContent where
  contentType : String
  text : Option String
  id : Option String
  name : Option String
  input : Option Json

structure AnthropicUsage where
  inputTokens : Nat
  outputTokens : Nat
  cacheReadInputTokens : Nat
  cacheCreationInputTokens : Nat
  deriving DecidableEq

structure AnthropicResponse where
  content : List AnthropicContent
  model : String
  usage : AnthropicUsage
  stopReason : Option String

/-- The JSON decoders, by the type they decode to. -/
structure Serde where
  value : String → Except String Json
  response : String → Except String AnthropicResponse

def parseAnthropicStopReason : Option String → FinishReason
  | some "end_turn" => .stop
  | some "tool_use" => .toolUse
  | some "max_tokens" => .maxTokens
  | _ => .stop

structure AnthropicStreamToolEntry where
  id : String
  name : String
  jsonBuf : String

/-- Input that does not decode is the empty object. -/
def parseInput (serde : Serde) (text : String) : Json :=
  match serde.value text with
  | .ok value => value
  | .error _ => .obj []

def startBlock (entries : List AnthropicStreamToolEntry) (id name : String) : List AnthropicStreamToolEntry :=
  entries ++ [⟨id, name, ""⟩]

/-- Input goes to the entry that was started last. -/
def appendJson (entries : List AnthropicStreamToolEntry) (piece : String) : List AnthropicStreamToolEntry :=
  match entries.getLast? with
  | some entry => entries.dropLast ++ [{ entry with jsonBuf := entry.jsonBuf ++ piece }]
  | none => entries

def intoToolCalls (serde : Serde) (entries : List AnthropicStreamToolEntry) : List ToolCall :=
  (entries.filter (fun e => e.id ≠ "")).map (fun e => ⟨e.id, e.name, parseInput serde e.jsonBuf⟩)

/-- What an event says, as far as it is read. -/
inductive StreamEvent where
  | messageStart (model : Option String) (usage : Option (Nat × Option Nat × Option Nat))
  | toolUseStart (id name : String)
  | textDelta (text : String)
  | inputJsonDelta (piece : String)
  | thinkingDelta (thinking : String)
  | signatureDelta (signature : String)
  | messageDelta (outputTokens : Option Nat) (stopReason : Option String)
  | ignored
  deriving DecidableEq

/-- `value[key].as_str()`. -/
def textAt (v : Json) (key : String) : Option String := (v.get key).bind Json.asStr

def countAt (v : Json) (key : String) : Option Nat := (v.get key).bind Json.asU64

def decodeDelta (delta : Json) : StreamEvent :=
  match textAt delta "type" with
  | some "text_delta" => ((textAt delta "text").map .textDelta).getD .ignored
  | some "input_json_delta" => ((textAt delta "partial_json").map .inputJsonDelta).getD .ignored
  | some "thinking_delta" => ((textAt delta "thinking").map .thinkingDelta).getD .ignored
  | some "signature_delta" => ((textAt delta "signature").map .signatureDelta).getD .ignored
  | _ => .ignored

/-- `value[key]`, which is null where there is none. -/
def index (v : Json) (key : String) : Json := (v.get key).getD .null

/-- `value[key].as_object()`, as the value it is read from. -/
def objectAt (v : Json) (key : String) : Option Json := (v.get key).filter (fun u => u.asObject.isSome)

def decodeEvent (event : Json) : StreamEvent :=
  match textAt event "type" with
  | some "message_start" =>
    let message := index event "message"
    .messageStart (textAt message "model") ((objectAt message "usage").map (fun u =>
      ((countAt u "input_tokens").getD 0, countAt u "cache_read_input_tokens", countAt u "cache_creation_input_tokens")))
  | some "content_block_start" =>
    let block := index event "content_block"
    if textAt block "type" = some "tool_use" then
      .toolUseStart ((textAt block "id").getD "") ((textAt block "name").getD "")
    else .ignored
  | some "content_block_delta" => decodeDelta (index event "delta")
  | some "message_delta" =>
    .messageDelta ((objectAt event "usage").map (fun u => (countAt u "output_tokens").getD 0))
      (textAt (index event "delta") "stop_reason")
  | _ => .ignored

/-- `as u32`. -/
def asU32 (n : Nat) : Nat := n % 4294967296

structure StreamState where
  fullContent : String
  reasoningContent : String
  reasoningSignature : String
  modelName : String
  inputTokens : Nat
  outputTokens : Nat
  cacheReadTokens : Nat
  cacheWriteTokens : Nat
  finishReason : FinishReason
  entries : List AnthropicStreamToolEntry
  shown : List String

namespace StreamState

/-- A count is taken when it is there and not zero. -/
def counted (old : Nat) : Option Nat → Nat
  | some n => if 0 < n then asU32 n else old
  | none => old

def apply (s : StreamState) : StreamEvent → StreamState
  | .messageStart model usage =>
    let s := { s with modelName := model.getD s.modelName }
    match usage with
    | some (input, cacheRead, cacheWrite) =>
      { s with
        inputTokens := asU32 input
        cacheReadTokens := counted s.cacheReadTokens cacheRead
        cacheWriteTokens := counted s.cacheWriteTokens cacheWrite }
    | none => s
  | .toolUseStart id name => { s with entries := startBlock s.entries id name }
  | .textDelta text =>
    if text = "" then s else { s with fullContent := s.fullContent ++ text, shown := s.shown ++ [text] }
  | .inputJsonDelta piece => { s with entries := appendJson s.entries piece }
  | .thinkingDelta thinking => { s with reasoningContent := s.reasoningContent ++ thinking }
  | .signatureDelta signature => { s with reasoningSignature := s.reasoningSignature ++ signature }
  | .messageDelta outputTokens stopReason =>
    { s with
      outputTokens := (outputTokens.map asU32).getD s.outputTokens
      finishReason := (stopReason.map (fun r => parseAnthropicStopReason (some r))).getD s.finishReason }
  | .ignored => s

/-- The lines of the stream; a line that does not decode is passed over. -/
def readLines (serde : Serde) (s : StreamState) : List (Except String String) → Except Failure StreamState
  | [] => .ok s
  | .error e :: _ => .error (.provider e)
  | .ok line :: rest =>
    if startsWithText line "data: " = false then readLines serde s rest
    else match serde.value (String.ofList (line.toList.drop 6)) with
      | .ok event => readLines serde (s.apply (decodeEvent event)) rest
      | .error _ => readLines serde s rest

def start (model : String) : StreamState := ⟨"", "", "", model, 0, 0, 0, 0, .stop, [], []⟩

def finish (serde : Serde) (s : StreamState) : CompletionResponse :=
  let toolCalls := intoToolCalls serde s.entries
  let finishReason := if toolCalls.isEmpty = false ∧ s.finishReason = .stop then .toolUse else s.finishReason
  ⟨s.fullContent, s.modelName, s.inputTokens, s.outputTokens, s.cacheReadTokens, s.cacheWriteTokens, toolCalls, finishReason,
    s.reasoningContent, s.reasoningSignature⟩

end StreamState

/-- `model` is the model of the request. -/
def completeStream (serde : Serde) (apiKey model : String) (reply : Reply (List (Except String String))) :
    Except Failure CompletionResponse :=
  if apiKey = "" then .error (.provider "api_key not configured")
  else match reply with
    | .failed e => .error (.provider e)
    | .refused status text => .error (.provider ("HTTP " ++ status ++ ": " ++ text))
    | .body lines => (StreamState.readLines serde (.start model) lines).map (StreamState.finish serde)

/-- The text and the tool calls of the blocks of a body. -/
def readContent : List AnthropicContent → String × List ToolCall
  | [] => ("", [])
  | block :: rest =>
    let (text, calls) := readContent rest
    if block.contentType = "text" then (block.text.getD "" ++ text, calls)
    else if block.contentType = "tool_use" then
      (text, ⟨block.id.getD "", block.name.getD "", block.input.getD (.obj [])⟩ :: calls)
    else (text, calls)

def complete (serde : Serde) (apiKey : String) (reply : Reply String) : Except Failure CompletionResponse :=
  if apiKey = "" then .error (.provider "api_key not configured")
  else match reply with
    | .failed e => .error (.provider e)
    | .refused status text => .error (.provider ("HTTP " ++ status ++ ": " ++ text))
    | .body rawBody =>
      match serde.response rawBody with
      | .error e => .error (.provider e)
      | .ok parsed =>
        let (text, calls) := readContent parsed.content
        .ok ⟨text, parsed.model, parsed.usage.inputTokens, parsed.usage.outputTokens, parsed.usage.cacheReadInputTokens,
          parsed.usage.cacheCreationInputTokens, calls, parseAnthropicStopReason parsed.stopReason, "", ""⟩

/-- A content block of an answer. -/
inductive Block where
  | thinking (thinking signature : String)
  | text (text : String)
  | toolUse (id name : String) (input : Json)

structure Answer where
  content : List Block
  model : String
  usage : AnthropicUsage
  stopReason : Option String

def Block.shownText : Block → String
  | .text shown => shown
  | _ => ""

def Block.thought : Block → String
  | .thinking thought _ => thought
  | _ => ""

def Block.signed : Block → String
  | .thinking _ signature => signature
  | _ => ""

def Block.call : Block → Option ToolCall
  | .toolUse id name input => some ⟨id, name, input⟩
  | _ => none

def Answer.text (a : Answer) : String := String.join (a.content.map Block.shownText)
def Answer.calls (a : Answer) : List ToolCall := a.content.filterMap Block.call

/-- The counts are those of a `u32`. -/
def AnthropicUsage.Fits (u : AnthropicUsage) : Prop :=
  u.inputTokens < 4294967296 ∧ u.outputTokens < 4294967296 ∧ u.cacheReadInputTokens < 4294967296 ∧ u.cacheCreationInputTokens < 4294967296

/-- A block of the body is a block of the answer. -/
def Block.Is : Block → AnthropicContent → Prop
  | .thinking _ _, c => c.contentType = "thinking"
  | .text shown, c => c.contentType = "text" ∧ c.text.getD "" = shown
  | .toolUse id name input, c => c.contentType = "tool_use" ∧ c.id.getD "" = id ∧ c.name.getD "" = name ∧
    c.input.getD (.obj []) = input

/-- The body is the answer in one piece; a count that is no `u32` does not decode. -/
structure Carries (serde : Serde) (a : Answer) (rawBody : String) : Prop where
  decodes : a.usage.Fits → ∃ content, serde.response rawBody = .ok ⟨content, a.model, a.usage, a.stopReason⟩ ∧
    List.Forall₂ Block.Is a.content content
  refuses : ¬a.usage.Fits → ∃ e, serde.response rawBody = .error e

/-- The events of a block, cut anywhere; the input of a tool call is a text that decodes to it, or
no text at all for the empty object. -/
inductive Delivers (serde : Serde) : Block → List StreamEvent → Prop where
  | text (pieces : List String) : Delivers serde (.text (String.join pieces)) (pieces.map .textDelta)
  | thinking (thoughts signatures : List String) : Delivers serde (.thinking (String.join thoughts) (String.join signatures))
      (thoughts.map .thinkingDelta ++ signatures.map .signatureDelta)
  | toolUse (id name : String) (input : Json) (pieces : List String) (decodes : parseInput serde (String.join pieces) = input) :
    Delivers serde (.toolUse id name input) (.toolUseStart id name :: pieces.map .inputJsonDelta)

/-- The events of an answer. Events that say nothing may stand anywhere. -/
structure Streams (serde : Serde) (a : Answer) (events : List StreamEvent) : Prop where
  pieces : ∃ cacheRead cacheWrite blocks,
    events.filter (· ≠ .ignored) = .messageStart (some a.model) (some (a.usage.inputTokens, cacheRead, cacheWrite)) ::
      (blocks.flatten ++ [.messageDelta (some a.usage.outputTokens) a.stopReason]) ∧
    cacheRead.getD 0 = a.usage.cacheReadInputTokens ∧ cacheWrite.getD 0 = a.usage.cacheCreationInputTokens ∧
    List.Forall₂ (Delivers serde) a.content blocks

/-- The lines send the events. -/
inductive Sends (serde : Serde) : List StreamEvent → List (Except String String) → Prop where
  | done : Sends serde [] []
  | skip {events rest} (line : String) (other : startsWithText line "data: " = false) (later : Sends serde events rest) :
    Sends serde events (.ok line :: rest)
  | event {events rest} (data : String) (json : Json) (decodes : serde.value data = .ok json) (later : Sends serde events rest) :
    Sends serde (decodeEvent json :: events) (.ok ("data: " ++ data) :: rest)

/-- No thinking, an id in every tool call, and with tool calls a stop reason that says so. -/
def Agrees (a : Answer) : Prop :=
  a.usage.Fits ∧ (∀ b ∈ a.content, b.thought = "" ∧ b.signed = "") ∧ (∀ call ∈ a.calls, call.id ≠ "") ∧
    (a.calls = [] ∨ parseAnthropicStopReason a.stopReason ≠ .stop)

theorem readContent_eq {blocks : List Block} {content : List AnthropicContent} (same : List.Forall₂ Block.Is blocks content) :
    readContent content = (String.join (blocks.map Block.shownText), blocks.filterMap Block.call) := by
  induction same with
  | nil => rfl
  | cons here later ih =>
    rename_i b c blocks content
    rw [readContent,ih]
    cases b with
    | thinking thinking signature =>
      have type : c.contentType = "thinking" := here
      simp [type,Block.shownText,Block.call,List.filterMap_cons]
    | text text =>
      obtain ⟨type, shown⟩ := here
      simp [type,shown,Block.shownText,Block.call,List.filterMap_cons]
    | toolUse id name input =>
      obtain ⟨type, same, named, given⟩ := here
      simp [type,same,named,given,Block.shownText,Block.call]

theorem Carries.complete {serde : Serde} {a : Answer} {rawBody apiKey : String} (carries : Carries serde a rawBody)
    (fits : a.usage.Fits) (key : apiKey ≠ "") : complete serde apiKey (.body rawBody) =
      .ok ⟨a.text, a.model, a.usage.inputTokens, a.usage.outputTokens, a.usage.cacheReadInputTokens,
        a.usage.cacheCreationInputTokens, a.calls, parseAnthropicStopReason a.stopReason, "", ""⟩ := by
  obtain ⟨content, decoded, same⟩ := carries.decodes fits
  simp [Anthropic.complete,key,decoded,readContent_eq same,Answer.text,Answer.calls]

theorem Sends.readLines {serde : Serde} {events : List StreamEvent} {lines : List (Except String String)}
    (sends : Sends serde events lines) (s : StreamState) : s.readLines serde lines = .ok (events.foldl StreamState.apply s) := by
  induction sends generalizing s with
  | done => rfl
  | skip line other later ih => simp [StreamState.readLines,other,ih]
  | event data json decodes later ih =>
    have starts : startsWithText ("data: " ++ data) "data: " = true := by simp [startsWithText]
    have cut : String.ofList (("data: " ++ data).toList.drop 6) = data := by simp
    rw [StreamState.readLines]
    simp only [starts,cut,decodes,ih]
    rfl

theorem foldl_ignored (events : List StreamEvent) (s : StreamState) :
    events.foldl StreamState.apply s = (events.filter (· ≠ .ignored)).foldl StreamState.apply s := by
  induction events generalizing s with
  | nil => rfl
  | cons event rest ih =>
    by_cases nothing : event = .ignored
    · simp [nothing,StreamState.apply,ih]
    · simp [nothing,ih]

section

variable (s : StreamState) (pieces : List String)

theorem foldl_textDeltas : ∃ shown, (pieces.map StreamEvent.textDelta).foldl StreamState.apply s =
    { s with fullContent := s.fullContent ++ String.join pieces, shown := shown } := by
  induction pieces generalizing s with
  | nil => exact ⟨s.shown, by simp⟩
  | cons piece rest ih =>
    obtain ⟨shown, later⟩ := ih (s.apply (.textDelta piece))
    refine ⟨shown, ?_⟩
    rw [List.map_cons,List.foldl_cons,later]
    by_cases empty : piece = ""
    · simp [StreamState.apply,empty]
    · simp [StreamState.apply,empty,String.append_assoc]

theorem foldl_thinkingDeltas : (pieces.map StreamEvent.thinkingDelta).foldl StreamState.apply s =
    { s with reasoningContent := s.reasoningContent ++ String.join pieces } := by
  induction pieces generalizing s with
  | nil => simp
  | cons piece rest ih => simp [ih,StreamState.apply,String.append_assoc]

theorem foldl_signatureDeltas : (pieces.map StreamEvent.signatureDelta).foldl StreamState.apply s =
    { s with reasoningSignature := s.reasoningSignature ++ String.join pieces } := by
  induction pieces generalizing s with
  | nil => simp
  | cons piece rest ih => simp [ih,StreamState.apply,String.append_assoc]

/-- The pieces of an input go to the entry at the end. -/
theorem foldl_inputDeltas {before : List AnthropicStreamToolEntry} {entry : AnthropicStreamToolEntry}
    (last : s.entries = before ++ [entry]) : (pieces.map StreamEvent.inputJsonDelta).foldl StreamState.apply s =
      { s with entries := before ++ [{ entry with jsonBuf := entry.jsonBuf ++ String.join pieces }] } := by
  induction pieces generalizing s entry with
  | nil => simp [← last]
  | cons piece rest ih =>
    have next : (s.apply (.inputJsonDelta piece)).entries = before ++ [{ entry with jsonBuf := entry.jsonBuf ++ piece }] := by
      simp [StreamState.apply,appendJson,last]
    rw [List.map_cons,List.foldl_cons,ih _ next]
    simp [StreamState.apply,String.append_assoc]

end

theorem intoToolCalls_append (serde : Serde) (first second : List AnthropicStreamToolEntry) :
    intoToolCalls serde (first ++ second) = intoToolCalls serde first ++ intoToolCalls serde second := by
  simp [intoToolCalls]

def named (call : ToolCall) : Bool := decide (call.id ≠ "")

/-- What the events of a block add. -/
theorem Delivers.adds {serde : Serde} {b : Block} {events : List StreamEvent} (delivers : Delivers serde b events)
    (s : StreamState) : ∃ shown entries, events.foldl StreamState.apply s =
      { s with
        fullContent := s.fullContent ++ b.shownText
        reasoningContent := s.reasoningContent ++ b.thought
        reasoningSignature := s.reasoningSignature ++ b.signed
        entries := s.entries ++ entries
        shown := shown } ∧ intoToolCalls serde entries = b.call.toList.filter named := by
  cases delivers with
  | text pieces =>
    obtain ⟨shown, added⟩ := foldl_textDeltas s pieces
    exact ⟨shown, [], by simp [added,Block.shownText,Block.thought,Block.signed], rfl⟩
  | thinking thoughts signatures =>
    refine ⟨s.shown, [], ?_, rfl⟩
    rw [List.foldl_append,foldl_thinkingDeltas,foldl_signatureDeltas]
    simp [Block.shownText,Block.thought,Block.signed]
  | toolUse id name input pieces decodes =>
    refine ⟨s.shown, [⟨id, name, String.join pieces⟩], ?_, ?_⟩
    · rw [List.foldl_cons,foldl_inputDeltas (s.apply (.toolUseStart id name)) pieces rfl]
      simp [StreamState.apply,Block.shownText,Block.thought,Block.signed]
    · by_cases empty : id = ""
      · simp [intoToolCalls,Block.call,named,empty]
      · simp [intoToolCalls,Block.call,named,empty,decodes]

/-- What the events of all blocks add. -/
theorem delivered_adds {serde : Serde} {blocks : List Block} {events : List (List StreamEvent)}
    (delivers : List.Forall₂ (Delivers serde) blocks events) (s : StreamState) :
    ∃ shown entries, events.flatten.foldl StreamState.apply s =
      { s with
        fullContent := s.fullContent ++ String.join (blocks.map Block.shownText)
        reasoningContent := s.reasoningContent ++ String.join (blocks.map Block.thought)
        reasoningSignature := s.reasoningSignature ++ String.join (blocks.map Block.signed)
        entries := s.entries ++ entries
        shown := shown } ∧ intoToolCalls serde entries = (blocks.filterMap Block.call).filter named := by
  induction delivers generalizing s with
  | nil => exact ⟨s.shown, [], by simp, rfl⟩
  | cons here later ih =>
    rename_i b first blocks rest
    obtain ⟨shown, entries, added, calls⟩ := here.adds s
    obtain ⟨shown', entries', added', calls'⟩ := ih (first.foldl StreamState.apply s)
    refine ⟨shown', entries ++ entries', ?_, ?_⟩
    · rw [List.flatten_cons,List.foldl_append,added',added]
      simp [String.append_assoc]
    · rw [intoToolCalls_append,calls,calls',List.filterMap_cons]
      cases b.call <;> simp [List.filter_cons]
      split <;> rfl

theorem counted_getD (n : Option Nat) : StreamState.counted 0 n = asU32 (n.getD 0) := by
  cases n with
  | none => rfl
  | some n =>
    simp only [StreamState.counted,Option.getD_some]
    split
    · rfl
    · have zero : n = 0 := by omega
      simp [zero,asU32]

/-- What a stream answers. -/
theorem Streams.completeStream {serde : Serde} {a : Answer} {events : List StreamEvent} {lines : List (Except String String)}
    {apiKey : String} (streams : Streams serde a events) (sends : Sends serde events lines) (key : apiKey ≠ "") (model : String) :
    completeStream serde apiKey model (.body lines) =
      .ok ⟨a.text, a.model, asU32 a.usage.inputTokens, asU32 a.usage.outputTokens, asU32 a.usage.cacheReadInputTokens,
        asU32 a.usage.cacheCreationInputTokens, a.calls.filter named,
        if (a.calls.filter named).isEmpty = false ∧ parseAnthropicStopReason a.stopReason = .stop then .toolUse
        else parseAnthropicStopReason a.stopReason,
        String.join (a.content.map Block.thought), String.join (a.content.map Block.signed)⟩ := by
  obtain ⟨cacheRead, cacheWrite, blocks, pieces, read, write, delivers⟩ := streams.pieces
  obtain ⟨shown, entries, added, calls⟩ := delivered_adds delivers
    ((StreamState.start model).apply (.messageStart (some a.model) (some (a.usage.inputTokens, cacheRead, cacheWrite))))
  have reason : (a.stopReason.map (fun r => parseAnthropicStopReason (some r))).getD .stop =
      parseAnthropicStopReason a.stopReason := by
    cases a.stopReason <;> rfl
  have state := foldl_ignored events (.start model)
  rw [pieces,List.foldl_cons,List.foldl_append,added] at state
  simp only [Anthropic.completeStream,key,if_false,sends.readLines,Except.map,state]
  simp only [StreamState.finish,StreamState.apply,StreamState.start,List.foldl_cons,List.foldl_nil,List.nil_append,
    String.empty_append,Option.getD_some,Option.map_some,calls,counted_getD,read,write,reason]
  rfl

/-- No thinking is left over when no block has any. -/
theorem quiet_iff {blocks : List Block} :
    (String.join (blocks.map Block.thought) = "" ∧ String.join (blocks.map Block.signed) = "") ↔
      ∀ b ∈ blocks, b.thought = "" ∧ b.signed = "" := by
  simp only [join_eq_empty_iff,List.mem_map]
  constructor
  · intro both b member
    exact ⟨both.1 _ ⟨b, member, rfl⟩, both.2 _ ⟨b, member, rfl⟩⟩
  · intro all
    refine ⟨?_, ?_⟩
    · rintro text ⟨b, member, rfl⟩
      exact (all b member).1
    · rintro text ⟨b, member, rfl⟩
      exact (all b member).2

theorem asU32_of_lt {n : Nat} (small : n < 4294967296) : asU32 n = n := Nat.mod_eq_of_lt small

/-- Streaming and batch agree on an answer exactly when there is no thinking, every tool call has
an id, the stop reason does not end a turn with tool calls, and the counts are counts. -/
theorem stream_matches_iff (serde : Serde) (apiKey model rawBody : String) (a : Answer) (events : List StreamEvent)
    (lines : List (Except String String)) (carries : Carries serde a rawBody) (streams : Streams serde a events)
    (sends : Sends serde events lines) :
    completeStream serde apiKey model (.body lines) = complete serde apiKey (.body rawBody) ↔ apiKey = "" ∨ Agrees a := by
  by_cases key : apiKey = ""
  · simp [completeStream,complete,key]
  · rw [streams.completeStream sends key]
    unfold Agrees
    by_cases fits : a.usage.Fits
    · obtain ⟨input, output, read, write⟩ := fits
      rw [carries.complete ⟨input, output, read, write⟩ key,asU32_of_lt input,asU32_of_lt output,asU32_of_lt read,asU32_of_lt write]
      have allNamed : a.calls.filter named = a.calls ↔ ∀ call ∈ a.calls, call.id ≠ "" := by
        simp [List.filter_eq_self,named]
      rw [← quiet_iff,← allNamed]
      simp only [Except.ok.injEq,CompletionResponse.mk.injEq,key,false_or,true_and]
      constructor
      · rintro ⟨all, reason, thought, signed⟩
        refine ⟨⟨input, output, read, write⟩, ⟨thought, signed⟩, all, ?_⟩
        by_cases none : a.calls = []
        · exact .inl none
        · refine .inr (fun stop => ?_)
          rw [all] at reason
          simp [none,stop] at reason
      · rintro ⟨-, ⟨thought, signed⟩, all, reason⟩
        refine ⟨all, ?_, thought, signed⟩
        rw [all,if_neg]
        rintro ⟨filled, stop⟩
        rcases reason with none | other
        · simp [none] at filled
        · exact other stop
    · obtain ⟨e, refused⟩ := carries.refuses fits
      simp [complete,key,refused,fits]

/-- Decoders that know the lines, one text of input and one body. -/
def tableSerde (table : List (String × Json)) (body : String) (parsed : AnthropicResponse) : Serde where
  value text :=
    match table.lookup text with
    | some json => .ok json
    | none => .error "expected value at line 1 column 1"
  response text := if text = body then .ok parsed else .error "error decoding response body"

def sentLines (table : List (String × Json)) : List (Except String String) := table.map (fun line => .ok ("data: " ++ line.1))

theorem tableSerde_sends {table known : List (String × Json)} {body : String} {parsed : AnthropicResponse}
    (distinct : (known.map Prod.fst).Nodup) (inside : table ⊆ known) :
    Sends (tableSerde known body parsed) (table.map (fun line => decodeEvent line.2)) (sentLines table) := by
  induction table with
  | nil => exact .done
  | cons line rest ih =>
    obtain ⟨data, json⟩ := line
    have found : known.lookup data = some json := (lookup_iff_mem distinct).mpr (inside List.mem_cons_self)
    exact .event data json (by simp [tableSerde,found]) (ih (fun other later => inside (List.mem_cons_of_mem _ later)))

def startLine : String × Json :=
  ("\x7b\"type\":\"message_start\",\"message\":\x7b\"model\":\"m\",\"usage\":\x7b\"input_tokens\":7\x7d\x7d\x7d",
    .obj [("type", .str "message_start"), ("message", .obj [("model", .str "m"), ("usage", .obj [("input_tokens", .nat 7)])])])

def deltaLine (text kind field value : String) : String × Json :=
  (text, .obj [("type", .str "content_block_delta"), ("delta", .obj [("type", .str kind), (field, .str value)])])

def hiLine : String × Json :=
  deltaLine "\x7b\"type\":\"content_block_delta\",\"delta\":\x7b\"type\":\"text_delta\",\"text\":\"Hi\"\x7d\x7d" "text_delta" "text" "Hi"

def endLine (text reason : String) : String × Json :=
  (text, .obj [("type", .str "message_delta"), ("delta", .obj [("stop_reason", .str reason)]),
    ("usage", .obj [("output_tokens", .nat 3)])])

/-- A text, and a tool call with its input in two pieces. -/
def toolLines : List (String × Json) := [
  startLine,
  hiLine,
  ("\x7b\"type\":\"content_block_start\",\"content_block\":\x7b\"type\":\"tool_use\",\"id\":\"t1\",\"name\":\"get\"\x7d\x7d",
    .obj [("type", .str "content_block_start"),
      ("content_block", .obj [("type", .str "tool_use"), ("id", .str "t1"), ("name", .str "get")])]),
  deltaLine "\x7b\"type\":\"content_block_delta\",\"delta\":\x7b\"type\":\"input_json_delta\",\"partial_json\":\"[\"\x7d\x7d"
    "input_json_delta" "partial_json" "[",
  deltaLine "\x7b\"type\":\"content_block_delta\",\"delta\":\x7b\"type\":\"input_json_delta\",\"partial_json\":\"1]\"\x7d\x7d"
    "input_json_delta" "partial_json" "1]",
  endLine "\x7b\"type\":\"message_delta\",\"delta\":\x7b\"stop_reason\":\"tool_use\"\x7d,\"usage\":\x7b\"output_tokens\":3\x7d\x7d" "tool_use",
  ("\x7b\"type\":\"message_stop\"\x7d", .obj [("type", .str "message_stop")])]

def toolAnswer : Answer :=
  ⟨[.text "Hi", .toolUse "t1" "get" (.arr [.nat 1])], "m", ⟨7, 3, 0, 0⟩, some "tool_use"⟩

def toolSerde : Serde :=
  tableSerde (toolLines ++ ([("[1]", .arr [.nat 1])] : List (String × Json))) "tool body"
    ⟨[⟨"text", some "Hi", none, none, none⟩, ⟨"tool_use", none, some "t1", some "get", some (.arr [.nat 1])⟩], "m", ⟨7, 3, 0, 0⟩,
      some "tool_use"⟩

theorem toolAnswer_fits : toolAnswer.usage.Fits := by simp [AnthropicUsage.Fits,toolAnswer]

theorem tool_matches :
    completeStream toolSerde "key" "m" (.body (sentLines toolLines)) = complete toolSerde "key" (.body "tool body") := by
  have carries : Carries toolSerde toolAnswer "tool body" := by
    refine ⟨fun _ => ⟨_, rfl, .cons ⟨rfl, rfl⟩ (.cons ⟨rfl, rfl, rfl, rfl⟩ .nil)⟩, fun not => absurd toolAnswer_fits not⟩
  have streams : Streams toolSerde toolAnswer (toolLines.map (fun line => decodeEvent line.2)) := by
    refine ⟨none, none, [[.textDelta "Hi"], [.toolUseStart "t1" "get", .inputJsonDelta "[", .inputJsonDelta "1]"]], by decide, rfl,
      rfl, ?_⟩
    refine .cons (.text ["Hi"]) (.cons (.toolUse "t1" "get" _ ["[", "1]"] ?_) .nil)
    decide
  exact (stream_matches_iff toolSerde "key" "m" "tool body" toolAnswer _ _ carries streams
    (tableSerde_sends (by decide) (List.subset_append_left _ _))).mpr (.inr
      ⟨toolAnswer_fits, by simp [toolAnswer,Block.thought,Block.signed], by simp [toolAnswer,Answer.calls,Block.call], .inr (by decide)⟩)

/-- A thought with its signature, and a text. -/
def thoughtLines : List (String × Json) := [
  startLine,
  deltaLine "\x7b\"type\":\"content_block_delta\",\"delta\":\x7b\"type\":\"thinking_delta\",\"thinking\":\"Hm\"\x7d\x7d" "thinking_delta"
    "thinking" "Hm",
  deltaLine "\x7b\"type\":\"content_block_delta\",\"delta\":\x7b\"type\":\"signature_delta\",\"signature\":\"sig\"\x7d\x7d"
    "signature_delta" "signature" "sig",
  hiLine,
  endLine "\x7b\"type\":\"message_delta\",\"delta\":\x7b\"stop_reason\":\"end_turn\"\x7d,\"usage\":\x7b\"output_tokens\":3\x7d\x7d" "end_turn"]

def thoughtAnswer : Answer := ⟨[.thinking "Hm" "sig", .text "Hi"], "m", ⟨7, 3, 0, 0⟩, some "end_turn"⟩

def thoughtSerde : Serde :=
  tableSerde thoughtLines "thought body"
    ⟨[⟨"thinking", none, none, none, none⟩, ⟨"text", some "Hi", none, none, none⟩], "m", ⟨7, 3, 0, 0⟩, some "end_turn"⟩

/-- The body loses the thinking and its signature. -/
theorem thought_differs :
    Carries thoughtSerde thoughtAnswer "thought body" ∧
    Streams thoughtSerde thoughtAnswer (thoughtLines.map (fun line => decodeEvent line.2)) ∧
    Sends thoughtSerde (thoughtLines.map (fun line => decodeEvent line.2)) (sentLines thoughtLines) ∧
    completeStream thoughtSerde "key" "m" (.body (sentLines thoughtLines)) =
      .ok ⟨"Hi", "m", 7, 3, 0, 0, [], .stop, "Hm", "sig"⟩ ∧
    complete thoughtSerde "key" (.body "thought body") = .ok ⟨"Hi", "m", 7, 3, 0, 0, [], .stop, "", ""⟩ := by
  have fits : thoughtAnswer.usage.Fits := by simp [AnthropicUsage.Fits,thoughtAnswer]
  have carries : Carries thoughtSerde thoughtAnswer "thought body" :=
    ⟨fun _ => ⟨_, rfl, .cons rfl (.cons ⟨rfl, rfl⟩ .nil)⟩, fun not => absurd fits not⟩
  have streams : Streams thoughtSerde thoughtAnswer (thoughtLines.map (fun line => decodeEvent line.2)) := by
    refine ⟨none, none, [[.thinkingDelta "Hm", .signatureDelta "sig"], [.textDelta "Hi"]], by decide, rfl, rfl, ?_⟩
    exact .cons (.thinking ["Hm"] ["sig"]) (.cons (.text ["Hi"]) .nil)
  have sends : Sends thoughtSerde (thoughtLines.map (fun line => decodeEvent line.2)) (sentLines thoughtLines) :=
    tableSerde_sends (by decide) (List.Subset.refl _)
  refine ⟨carries, streams, sends, ?_, ?_⟩
  · rw [streams.completeStream sends (by decide)]
    rfl
  · rw [carries.complete fits (by decide)]
    rfl

end Zaion.Provider.Anthropic
