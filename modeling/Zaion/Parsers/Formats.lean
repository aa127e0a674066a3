import Zaion.Host
import Zaion.Lib.Braces
import Zaion.Lib.Find
import Zaion.Lib.Text
import Zaion.Provider.OpenAi

/-! The eleven parsers of tool calls in model output, and the one that tries them all. JSON is
read by the host. -/
namespace Zaion.Parsers

open Lib Provider

/-- The object of no fields. -/
def noArguments : Json := .obj []

def jsonToToolCall (host : Host) (id : String) (obj : Json) : Option ToolCall := do
  let name ← ((obj.get "name").or ((obj.get "function").bind (Json.get "name"))).bind Json.asStr
  let arguments := ((((obj.get "arguments").or (obj.get "input")).or (obj.get "parameters")).or
    ((obj.get "function").bind (Json.get "arguments"))).getD noArguments
  -- Arguments written as a text are read once more.
  let arguments := match arguments with
    | .str text => (host.ofText text).getD noArguments
    | other => other
  some ⟨id, name, arguments⟩

/-- The brace-balanced stretches of a text from the left, each with the place it starts at. The
search goes on behind a stretch, whatever it is, and behind a brace that is never closed. One that
is never closed and whose depth has wrapped around to zero at the end of the text, after `2 ^ 32`
braces, is gone on from here too, where the source's loop stays at it. -/
def stretchesFrom : Nat → Nat → List Char → List (Nat × List Char)
  | _, _, [] => []
  | skip + 1, place, _ :: rest => stretchesFrom skip (place + 1) rest
  | 0, place, c :: rest =>
    if c = '\x7b' then
      match Braces.start.candidate (c :: rest) with
      | some (slice, _) => (place, slice) :: stretchesFrom (slice.length - 1) (place + 1) rest
      | none => stretchesFrom 0 (place + 1) rest
    else stretchesFrom 0 (place + 1) rest

def stretches (text : List Char) : List (Nat × List Char) := stretchesFrom 0 0 text

/-- The stretches that are read as JSON, with what they are read as. -/
def extractWithPlaces (host : Host) (text : List Char) : List ((Nat × List Char) × Json) :=
  (stretches text).filterMap fun stretch => (host.ofText (String.ofList stretch.2)).map fun v => (stretch, v)

def extractJsonObjects (host : Host) (text : List Char) : List Json := (extractWithPlaces host text).map Prod.snd

def extractBetween (text opening closing : List Char) : Option (List Char) := do
  let (_, inner) ← breakAt opening text
  let (content, _) ← breakAt closing inner
  some content

def fence : List Char := ['\x60', '\x60', '\x60']

/-- The loop of `extract_code_blocks`; each pass leaves less of the text. -/
def codeBlocksFrom : Nat → List Char → List (List Char)
  | 0, _ => []
  | fuel + 1, remaining =>
    match breakAt fence remaining with
    | none => []
    | some (_, remaining) =>
      let remaining := match breakAt ['\n'] remaining with
        | some (_, line) => line
        | none => remaining
      match breakAt fence remaining with
      | some (block, remaining) => block :: codeBlocksFrom fuel remaining
      | none => []

def extractCodeBlocks (text : List Char) : List (List Char) := codeBlocksFrom (text.length + 1) text

/-- What the text is read as, whitespace around it aside. -/
def readTrimmed (host : Host) (text : List Char) : Option Json := host.ofText (trim (String.ofList text))

/-- Calls numbered by the place of their value. -/
def numbered (host : Host) (start : String) (f : Host → String → Json → Option ToolCall) (values : List Json) :
    List ToolCall := values.zipIdx.filterMap fun value => f host (start ++ toString value.2) value.1

/-- Calls numbered as they are found. -/
def collect (host : Host) (start : String) (values : List Json) : List ToolCall :=
  values.foldl (fun results v => results ++ (jsonToToolCall host (start ++ toString results.length) v).toList) []

/-- The loop over `opening..closing`; what remains starts with the closing tag. -/
def contentsFrom (opening closing : List Char) : Nat → List Char → List (List Char)
  | 0, _ => []
  | fuel + 1, remaining =>
    match breakAt opening remaining with
    | none => []
    | some (_, inner) =>
      match breakAt closing inner with
      | none => []
      | some (content, _) => content :: contentsFrom opening closing fuel (inner.drop content.length)

def contents (opening closing : List Char) (raw : List Char) : List (List Char) :=
  contentsFrom opening closing (raw.length + 1) raw

def parseTagged (host : Host) (opening closing start : String) (raw : String) : List ToolCall :=
  collect host start ((contents opening.toList closing.toList raw.toList).filterMap (readTrimmed host))

/-- The array of a top-level `tool_calls` field. -/
def toolCallsField (host : Host) (raw : String) : Option (List Json) :=
  (host.ofText raw).bind fun v => (v.get "tool_calls").bind Json.asArray

def parseHermes (host : Host) (raw : String) : List ToolCall :=
  match toolCallsField host raw with
  | some calls => numbered host "call_" jsonToToolCall calls
  | none => []

def parseDeepSeekV3 (host : Host) (raw : String) : List ToolCall :=
  numbered host "ds_" jsonToToolCall (extractJsonObjects host raw.toList)

def parseDeepSeekV31 (host : Host) (raw : String) : List ToolCall :=
  parseTagged host "<tool_call>" "</tool_call>" "ds1_" raw

/-- The calls of Mistral's own array: the function's fields only. -/
def mistralCall (host : Host) (id : String) (c : Json) : Option ToolCall := do
  let function ← c.get "function"
  let name ← (function.get "name").bind Json.asStr
  let arguments ← function.get "arguments"
  let arguments := match arguments with
    | .str text => (host.ofText text).getD noArguments
    | other => other
  some ⟨id, name, arguments⟩

def parseMistral (host : Host) (raw : String) : List ToolCall :=
  match toolCallsField host raw with
  | some calls => numbered host "mist_" mistralCall calls
  | none => numbered host "mist_" (fun host id obj =>
      if (obj.get "function").isSome then jsonToToolCall host id obj else none) (extractJsonObjects host raw.toList)

/-- The calls one code block adds: those of an array by place, an object's as found. -/
def llamaBlock (host : Host) (results : List ToolCall) : Json → List ToolCall
  | .arr items => results ++ numbered host "ll_" jsonToToolCall items
  | .obj fields => results ++ (jsonToToolCall host ("ll_" ++ toString results.length) (.obj fields)).toList
  | _ => results

def parseLlama3Json (host : Host) (raw : String) : List ToolCall :=
  ((extractCodeBlocks raw.toList).filterMap (readTrimmed host)).foldl (llamaBlock host) []

def parseLongcat (host : Host) (raw : String) : List ToolCall :=
  parseTagged host "<functioncall>" "</functioncall>" "lc_" raw

def parseGlm45 (host : Host) (raw : String) : List ToolCall :=
  numbered host "glm45_" (fun host id obj =>
    if (obj.get "name").isSome && ((obj.get "arguments").isSome || (obj.get "input").isSome) then
      jsonToToolCall host id obj
    else none) (extractJsonObjects host raw.toList)

def parseGlm47 (host : Host) (raw : String) : List ToolCall :=
  match toolCallsField host raw with
  | some calls => numbered host "glm47_" (fun host id c =>
      if (c.get "type").bind Json.asStr = some "function" then jsonToToolCall host id c else none) calls
  | none => parseGlm45 host raw

def parseKimiK2 (host : Host) (raw : String) : List ToolCall :=
  match (extractBetween raw.toList "<|tool_calls|>".toList "<|".toList).bind (readTrimmed host) with
  | some (.arr items) => numbered host "kimi_" jsonToToolCall items
  | _ =>
    match readTrimmed host raw.toList with
    | some (.arr items) => numbered host "kimi_" jsonToToolCall items
    | _ => numbered host "kimi_" jsonToToolCall (extractJsonObjects host raw.toList)

def parseQwen3Coder (host : Host) (raw : String) : List ToolCall :=
  parseTagged host "<tool_call>" "</tool_call>" "qwen3_" raw

/-- The arguments after a function's name: up to the next marker, or to the end. -/
def qwenArguments (host : Host) (remaining : List Char) : Json :=
  match extractBetween remaining "✿ARGS✿:".toList "\n✿".toList with
  | some content => (readTrimmed host content).getD noArguments
  | none =>
    match breakAt "✿ARGS✿:".toList remaining with
    | some (_, content) => (readTrimmed host content).getD noArguments
    | none => noArguments

/-- The name is the first line behind the marker that is not blank. -/
def qwenName (remaining : List Char) : String :=
  trim (String.ofList ((remaining.dropWhile isWhiteSpace).takeWhile fun c => c != '\n'))

/-- The loop over the function markers. -/
def qwenCalls (host : Host) : Nat → List ToolCall → List Char → List ToolCall
  | 0, results, _ => results
  | fuel + 1, results, remaining =>
    match breakAt "✿FUNCTION✿:".toList remaining with
    | none => results
    | some (_, remaining) =>
      if qwenName remaining = "" then qwenCalls host fuel results remaining
      else qwenCalls host fuel
        (results ++ [⟨"qwen_" ++ toString results.length, qwenName remaining, qwenArguments host remaining⟩]) remaining

def parseQwen (host : Host) (raw : String) : List ToolCall :=
  let results := if containsText raw "✿FUNCTION✿" then qwenCalls host (raw.toList.length + 1) [] raw.toList else []
  if results.isEmpty then numbered host "qwen_" jsonToToolCall (extractJsonObjects host raw.toList) else results

/-! The registry. -/

inductive ToolCallParser where
  | hermes
  | deepSeekV3
  | deepSeekV31
  | mistral
  | llama3Json
  | longcat
  | glm45
  | glm47
  | kimiK2
  | qwen3Coder
  | qwen
  deriving DecidableEq, Repr

namespace ToolCallParser

def name : ToolCallParser → String
  | .hermes => "hermes"
  | .deepSeekV3 => "deepseek_v3"
  | .deepSeekV31 => "deepseek_v3_1"
  | .mistral => "mistral"
  | .llama3Json => "llama3_json"
  | .longcat => "longcat"
  | .glm45 => "glm45"
  | .glm47 => "glm47"
  | .kimiK2 => "kimi_k2"
  | .qwen3Coder => "qwen3_coder"
  | .qwen => "qwen"

def parse (host : Host) : ToolCallParser → String → List ToolCall
  | .hermes => parseHermes host
  | .deepSeekV3 => parseDeepSeekV3 host
  | .deepSeekV31 => parseDeepSeekV31 host
  | .mistral => parseMistral host
  | .llama3Json => parseLlama3Json host
  | .longcat => parseLongcat host
  | .glm45 => parseGlm45 host
  | .glm47 => parseGlm47 host
  | .kimiK2 => parseKimiK2 host
  | .qwen3Coder => parseQwen3Coder host
  | .qwen => parseQwen host

end ToolCallParser

def allParsers : List ToolCallParser :=
  [.hermes, .deepSeekV3, .deepSeekV31, .mistral, .llama3Json, .longcat, .glm45, .glm47, .kimiK2, .qwen3Coder, .qwen]

def getParser (name : String) : Option ToolCallParser := allParsers.find? fun parser => decide (parser.name = name)

/-- Tagged formats first, bare JSON last. -/
def parserPriority : List String :=
  ["deepseek_v3_1", "qwen3_coder", "longcat", "kimi_k2", "hermes", "mistral", "llama3_json", "glm47", "glm45",
    "deepseek_v3", "qwen"]

/-- The first result that is not empty. -/
def firstCalls (host : Host) (raw : String) : List String → List ToolCall
  | [] => []
  | name :: rest =>
    match getParser name with
    | none => firstCalls host raw rest
    | some parser =>
      if (parser.parse host raw).isEmpty then firstCalls host raw rest else parser.parse host raw

def tryAllParsers (host : Host) (raw : String) : List ToolCall := firstCalls host raw parserPriority

end Zaion.Parsers
