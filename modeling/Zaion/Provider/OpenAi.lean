import Zaion.Lib.Json
import Zaion.Lib.Text

/-! The OpenAI provider: one decoder for an answer sent as one body, and another that puts it
together from the chunks of a stream. -/
namespace Zaion.Provider

open Lib

structure ToolCall where
  id : String
  name : String
  arguments : Json

inductive FinishReason where
  | stop
  | toolUse
  | maxTokens
  | contentFilter
  deriving DecidableEq, Repr

structure CompletionResponse where
  content : String
  model : String
  inputTokens : Nat
  outputTokens : Nat
  cacheReadTokens : Nat
  cacheWriteTokens : Nat
  toolCalls : List ToolCall
  finishReason : FinishReason
  reasoningContent : String
  reasoningSignature : String

/-- `AdapterError::Provider` with its text, or a slice inside a character. -/
inductive Failure where
  | provider (message : String)
  | panicked
  deriving DecidableEq

/-- What sending a request gives. -/
inductive Reply (α : Type) where
  | failed (error : String)
  | refused (status text : String)
  | body (value : α)

namespace OpenAi

structure PromptTokensDetails where
  cachedTokens : Nat

structure OpenAiUsage where
  promptTokens : Nat
  completionTokens : Nat
  inputTokens : Nat
  outputTokens : Nat
  cacheReadInputTokens : Nat
  cacheCreationInputTokens : Nat
  cachedTokens : Nat
  promptTokensDetails : Option PromptTokensDetails

namespace OpenAiUsage

def cacheReadTokens (u : OpenAiUsage) : Nat :=
  if 0 < u.cacheReadInputTokens then u.cacheReadInputTokens
  else if 0 < u.cachedTokens then u.cachedTokens
  else match u.promptTokensDetails with
    | some d => d.cachedTokens
    | none => 0

def cacheWriteTokens (u : OpenAiUsage) : Nat := u.cacheCreationInputTokens

def promptTokensNormalized (u : OpenAiUsage) : Nat :=
  let total := if 0 < u.promptTokens then u.promptTokens else u.inputTokens
  total - u.cacheReadTokens - u.cacheWriteTokens

def completionTokensNormalized (u : OpenAiUsage) : Nat :=
  if 0 < u.completionTokens then u.completionTokens else u.outputTokens

end OpenAiUsage

structure OpenAiFunction where
  name : String
  arguments : String

structure OpenAiToolCall where
  id : String
  function : OpenAiFunction

structure ReasoningDetail where
  text : Option String

structure OpenAiMessage where
  content : Option String
  reasoningContent : Option String
  audioContent : Option String
  reasoningDetails : Option (List ReasoningDetail)
  toolCalls : Option (List OpenAiToolCall)

structure OpenAiChoice where
  message : OpenAiMessage
  finishReason : Option String

structure OpenAiResponse where
  choices : List OpenAiChoice
  usage : Option OpenAiUsage
  model : Option String

structure OpenAiStreamFunction where
  name : Option String
  arguments : Option String

structure OpenAiStreamToolCall where
  index : Nat
  id : Option String
  function : Option OpenAiStreamFunction

structure OpenAiStreamDelta where
  content : Option String
  reasoningContent : Option String
  audioContent : Option String
  toolCalls : Option (List OpenAiStreamToolCall)

structure OpenAiStreamChoice where
  delta : OpenAiStreamDelta
  finishReason : Option String

structure OpenAiStreamChunk where
  model : Option String
  choices : List OpenAiStreamChoice
  usage : Option OpenAiUsage

/-- The JSON decoders, by the type they decode to. -/
structure Serde where
  value : String → Except String Json
  chunk : String → Option OpenAiStreamChunk
  response : String → Option OpenAiResponse
  responseOfValue : Json → Except String OpenAiResponse

def parseOpenaiFinishReason : Option String → FinishReason
  | some "stop" => .stop
  | some "tool_calls" => .toolUse
  | some "length" => .maxTokens
  | some "content_filter" => .contentFilter
  | _ => .stop

/-- Arguments that do not decode are the empty object. -/
def parseArguments (serde : Serde) (text : String) : Json :=
  match serde.value text with
  | .ok value => value
  | .error _ => .obj []

def parseOpenaiToolCalls (serde : Serde) (raw : List OpenAiToolCall) : List ToolCall :=
  raw.map (fun tc => ⟨tc.id, tc.function.name, parseArguments serde tc.function.arguments⟩)

/-- The first of the texts that is not empty. -/
def firstText : List (Option String) → String
  | [] => ""
  | some text :: rest => if text = "" then firstText rest else text
  | none :: rest => firstText rest

def extractTextFromOpenaiMessage (msg : OpenAiMessage) : String :=
  firstText ([msg.content, msg.reasoningContent, msg.audioContent] ++
    (msg.reasoningDetails.getD []).map ReasoningDetail.text)

def extractResponsesOutputText (response : Json) : Option String :=
  match ((response.get "output_text").bind Json.asStr).filter (· ≠ "") with
  | some text => some text
  | none =>
    (((response.get "output").bind Json.asArray).map (fun items =>
      String.join ((items.flatMap (fun item => ((item.get "content").bind Json.asArray).getD [])).filterMap
        (fun part => ((part.get "text").or (part.get "output_text")).bind Json.asStr)))).filter (· ≠ "")

def maxU32 : Nat := 4294967295

def responsesUsageTokens (response : Json) : Nat × Nat × Nat × Nat :=
  match response.get "usage" with
  | none => (0, 0, 0, 0)
  | some usage =>
    let parse := fun key => min (((usage.get key).bind Json.asU64).getD 0) maxU32
    let cacheRead := min ((((usage.get "input_tokens_details").bind (Json.get "cached_tokens")).bind Json.asU64).getD 0) maxU32
    (parse "input_tokens" - cacheRead, parse "output_tokens", cacheRead, 0)

structure StreamToolCallEntry where
  id : String
  name : String
  argumentsBuf : String

/-- What a stream has put together so far, and the tokens it has shown. -/
structure StreamState where
  fullContent : String
  modelName : String
  inputTokens : Nat
  outputTokens : Nat
  cacheReadTokens : Nat
  cacheWriteTokens : Nat
  finishReason : FinishReason
  entries : List StreamToolCallEntry
  shown : List String

namespace StreamState

def appendStreamText (s : StreamState) (text : String) : StreamState :=
  if text = "" then s else { s with fullContent := s.fullContent ++ text, shown := s.shown ++ [text] }

def applyFinalTextSnapshot (s : StreamState) (text : String) : StreamState :=
  if s.fullContent.toList <+: text.toList then
    s.appendStreamText (String.ofList (text.toList.drop s.fullContent.toList.length))
  else s

def applyUsageTokens (s : StreamState) (input output cacheRead cacheWrite : Nat) : StreamState :=
  { s with
    inputTokens := if 0 < input then input else s.inputTokens
    outputTokens := if 0 < output then output else s.outputTokens
    cacheReadTokens := if 0 < cacheRead then cacheRead else s.cacheReadTokens
    cacheWriteTokens := if 0 < cacheWrite then cacheWrite else s.cacheWriteTokens }

def applyUsage (s : StreamState) : Option OpenAiUsage → StreamState
  | some usage => s.applyUsageTokens usage.promptTokensNormalized usage.completionTokensNormalized usage.cacheReadTokens
      usage.cacheWriteTokens
  | none => s

end StreamState

def StreamToolCallEntry.merge (entry : StreamToolCallEntry) (delta : OpenAiStreamToolCall) : StreamToolCallEntry where
  id := delta.id.getD entry.id
  name := (delta.function.bind OpenAiStreamFunction.name).getD entry.name
  argumentsBuf := entry.argumentsBuf ++ (delta.function.bind OpenAiStreamFunction.arguments).getD ""

/-- Entries are added up to the index of the delta. -/
def processDelta (entries : List StreamToolCallEntry) (delta : OpenAiStreamToolCall) : List StreamToolCallEntry :=
  let entries := entries ++ List.replicate (delta.index + 1 - entries.length) ⟨"", "", ""⟩
  entries.modify delta.index (fun entry => entry.merge delta)

def intoToolCalls (serde : Serde) (entries : List StreamToolCallEntry) : List ToolCall :=
  (entries.filter (fun e => e.id ≠ "")).map (fun e => ⟨e.id, e.name, parseArguments serde e.argumentsBuf⟩)

namespace StreamState

def applyChoice (s : StreamState) (choice : OpenAiStreamChoice) : StreamState :=
  let s := match choice.finishReason with
    | some reason => { s with finishReason := parseOpenaiFinishReason (some reason) }
    | none => s
  let s := match (choice.delta.content.or choice.delta.audioContent).or choice.delta.reasoningContent with
    | some token => s.appendStreamText token
    | none => s
  { s with entries := (choice.delta.toolCalls.getD []).foldl processDelta s.entries }

def applyChunk (s : StreamState) (chunk : OpenAiStreamChunk) : StreamState :=
  let s := { s with modelName := chunk.model.getD s.modelName }
  let s := s.applyUsage chunk.usage
  match chunk.choices with
  | choice :: _ => s.applyChoice choice
  | [] => s

/-- A line that also decodes as a whole answer. -/
def applyFull (s : StreamState) (full : OpenAiResponse) : StreamState :=
  let s := s.applyUsage full.usage
  match full.choices with
  | [] => s
  | choice :: _ =>
    let s := match choice.finishReason with
      | some reason => { s with finishReason := parseOpenaiFinishReason (some reason) }
      | none => s
    if s.fullContent = "" then s.applyFinalTextSnapshot (extractTextFromOpenaiMessage choice.message) else s

/-- The message of a failed response. -/
def failedMessage (event : Json) : String :=
  match (((event.get "response").bind (Json.get "error")).bind (fun error =>
      ((error.get "message").or (error.get "code")).bind Json.asStr)).or
      (((event.get "error").bind (Json.get "message")).bind Json.asStr) with
  | some message => message
  | none => "responses api stream failed"

def applyCompleted (s : StreamState) (response : Json) : StreamState :=
  let s := { s with modelName := ((response.get "model").bind Json.asStr).getD s.modelName }
  let s := match extractResponsesOutputText response with
    | some text => s.applyFinalTextSnapshot text
    | none => s
  let (input, output, cacheRead, cacheWrite) := responsesUsageTokens response
  { s.applyUsageTokens input output cacheRead cacheWrite with finishReason := .stop }

def applyEvent (s : StreamState) (event : Json) : Except Failure StreamState :=
  match (event.get "type").bind Json.asStr with
  | some "response.output_text.delta" =>
    match (event.get "delta").bind Json.asStr with
    | some delta => .ok (s.appendStreamText delta)
    | none => .ok s
  | some "response.output_text.done" =>
    match (event.get "text").bind Json.asStr with
    | some text => .ok (s.applyFinalTextSnapshot text)
    | none => .ok s
  | some "response.completed" =>
    match event.get "response" with
    | some response => .ok (s.applyCompleted response)
    | none => .ok s
  | some "response.failed" => .error (.provider (failedMessage event))
  | _ => .ok s

/-- One line of data, decoded in three ways. -/
def applyData (serde : Serde) (s : StreamState) (data : String) : Except Failure StreamState :=
  let s := match serde.chunk data with
    | some chunk => s.applyChunk chunk
    | none => s
  let s := match serde.response data with
    | some full => s.applyFull full
    | none => s
  match serde.value data with
  | .ok event => s.applyEvent event
  | .error _ => .ok s

/-- The lines up to the mark of the end. -/
def readLines (serde : Serde) (s : StreamState) : List (Except String String) → Except Failure StreamState
  | [] => .ok s
  | .error e :: _ => .error (.provider e)
  | .ok line :: rest =>
    if startsWithText line "data: " = false then readLines serde s rest
    else
      let data := String.ofList (line.toList.drop 6)
      if data = "[DONE]" then .ok s
      else match s.applyData serde data with
        | .ok s => readLines serde s rest
        | .error e => .error e

def start (model : String) : StreamState := ⟨"", model, 0, 0, 0, 0, .stop, [], []⟩

def noContent : Failure := .provider "provider returned no visible assistant content"

def finish (serde : Serde) (s : StreamState) : Except Failure CompletionResponse :=
  let toolCalls := intoToolCalls serde s.entries
  let finishReason := if toolCalls.isEmpty = false ∧ s.finishReason = .stop then .toolUse else s.finishReason
  if trim s.fullContent = "" ∧ toolCalls.isEmpty = true then .error noContent
  else .ok ⟨s.fullContent, s.modelName, s.inputTokens, s.outputTokens, s.cacheReadTokens, s.cacheWriteTokens, toolCalls,
    finishReason, "", ""⟩

end StreamState

/-- `model` is the model of the request. -/
def completeStream (serde : Serde) (model : String) : Reply (List (Except String String)) → Except Failure CompletionResponse
  | .failed e => .error (.provider e)
  | .refused status text => .error (.provider ("HTTP " ++ status ++ ": " ++ text))
  | .body lines =>
    match StreamState.readLines serde (.start model) lines with
    | .error e => .error e
    | .ok s => s.finish serde

/-- `&raw_body[..raw_body.len().min(200)]`. -/
def bodyPreview (rawBody : String) : Option String :=
  (firstBytes (min rawBody.utf8ByteSize 200) rawBody.toList).map String.ofList

/-- The body of an API error: the status message it names, or its beginning. -/
def apiError (serde : Serde) (rawBody : String) : Failure :=
  match (serde.value rawBody).toOption.bind (fun v => ((v.get "base_resp").bind (Json.get "status_msg")).bind Json.asStr) with
  | some message => .provider ("API error: " ++ message)
  | none =>
    match bodyPreview rawBody with
    | some start => .provider ("API error: " ++ start)
    | none => .panicked

/-- An answer of the responses API. -/
def responsesAnswer (model : String) (rawBody : String) (rawJson : Json) : Except Failure CompletionResponse :=
  match extractResponsesOutputText rawJson with
  | some content =>
    if trim content = "" then .error StreamState.noContent
    else
      let (input, output, cacheRead, cacheWrite) := responsesUsageTokens rawJson
      .ok ⟨content, ((rawJson.get "model").bind Json.asStr).getD model, input, output, cacheRead, cacheWrite, [], .stop, "", ""⟩
  | none =>
    match bodyPreview rawBody with
    | some start => .error (.provider ("decode error: expected OpenAI chat completions or responses API body: " ++ start))
    | none => .error .panicked

/-- An answer with choices. -/
def chatAnswer (serde : Serde) (model : String) (parsed : OpenAiResponse) : Except Failure CompletionResponse :=
  let choice := parsed.choices.head?
  let finishReason := parseOpenaiFinishReason (choice.bind OpenAiChoice.finishReason)
  let (content, toolCalls) := match choice with
    | some c => (extractTextFromOpenaiMessage c.message, parseOpenaiToolCalls serde (c.message.toolCalls.getD []))
    | none => ("", [])
  if trim content = "" ∧ toolCalls.isEmpty = true then .error StreamState.noContent
  else
    let (input, output, cacheRead, cacheWrite) := match parsed.usage with
      | some u => (u.promptTokensNormalized, u.completionTokensNormalized, u.cacheReadTokens, u.cacheWriteTokens)
      | none => (0, 0, 0, 0)
    .ok ⟨content, parsed.model.getD model, input, output, cacheRead, cacheWrite, toolCalls, finishReason, "", ""⟩

def complete (serde : Serde) (model : String) : Reply String → Except Failure CompletionResponse
  | .failed e => .error (.provider e)
  | .refused status text => .error (.provider ("HTTP " ++ status ++ ": " ++ text))
  | .body rawBody =>
    if containsText rawBody "\"choices\":null" then .error (apiError serde rawBody)
    else match serde.value rawBody with
      | .error e => .error (.provider ("decode error: " ++ e))
      | .ok rawJson =>
        if rawJson.get "choices" = none then responsesAnswer model rawBody rawJson
        else match serde.responseOfValue rawJson with
          | .error e => .error (.provider ("decode error: " ++ e))
          | .ok parsed => chatAnswer serde model parsed

end OpenAi

end Zaion.Provider
