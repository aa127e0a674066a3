import Zaion.Agent.Fsm

/-! Requests to the Anthropic API: what becomes of a conversation with tool calls and their results, in
the standard format of tools and in that of OpenAI, and what the prompt cache changes. The cached
messages are always built in the standard format. -/
namespace Zaion.Provider.AnthropicRequest

open Agent (ChatMessage ToolCall)

def isTool (m : ChatMessage) : Bool := decide (m.role = "tool")

/-- The id of a result is `null` where the message has none. -/
def resultId (m : ChatMessage) : Json := .ofOption .str m.toolCallId

def toolMessage (m : ChatMessage) : Json :=
  .obj [("role", .str "tool"), ("tool_call_id", resultId m), ("content", .str m.content)]

def toolResult (m : ChatMessage) : Json :=
  .obj [("type", .str "tool_result"), ("tool_use_id", resultId m), ("content", .str m.content)]

def userResults (run : List ChatMessage) : Json := .obj [("role", .str "user"), ("content", .arr (run.map toolResult))]

/-- `toText` is `Value::to_string`. -/
def openAiAssistant (toText : Json → String) (m : ChatMessage) : Json :=
  .obj (([("role", .str "assistant"), ("content", .str m.content),
    ("tool_calls", .arr (m.toolCalls.map fun tc => .obj [("id", .str tc.id), ("type", .str "function"),
      ("function", .obj [("name", .str tc.name), ("arguments", .str (toText tc.arguments))])]))] : List (String × Json)) ++
    (match m.reasoningContent with
    | some reasoning => [("reasoning_content", .str reasoning)]
    | none => [] : List (String × Json)))

def thinkingBlocks (m : ChatMessage) : List Json :=
  match m.reasoningContent with
  | some reasoning =>
    if reasoning = "" then []
    else [.obj [("type", .str "thinking"), ("thinking", .str reasoning),
      ("signature", .str (m.reasoningSignature.getD ""))]]
  | none => []

def textBlocks (m : ChatMessage) : List Json :=
  if m.content = "" then [] else [.obj [("type", .str "text"), ("text", .str m.content)]]

def toolUse (tc : ToolCall) : Json :=
  .obj [("type", .str "tool_use"), ("id", .str tc.id), ("name", .str tc.name), ("input", tc.arguments)]

def contentBlocks (m : ChatMessage) : List Json := thinkingBlocks m ++ textBlocks m ++ m.toolCalls.map toolUse

def assistantBlocks (m : ChatMessage) : Json := .obj [("role", .str "assistant"), ("content", .arr (contentBlocks m))]

def plainMessage (m : ChatMessage) : Json := .obj [("role", .str m.role), ("content", .str m.content)]

/-- What is pushed for a message that is not a tool's. -/
def spokenMessage (toText : Json → String) (openAiToolsFormat : Bool) (m : ChatMessage) : Json :=
  if m.toolCalls ≠ [] ∧ openAiToolsFormat = true then openAiAssistant toText m
  else if m.toolCalls ≠ [] then assistantBlocks m
  else plainMessage m

def buildAnthropicMessages (toText : Json → String) (openAiToolsFormat : Bool) : List ChatMessage → List Json
  | [] => []
  | m :: rest =>
    if isTool m = true ∧ openAiToolsFormat = true then toolMessage m :: buildAnthropicMessages toText openAiToolsFormat rest
    else if isTool m = true then
      userResults (m :: rest.takeWhile isTool) :: buildAnthropicMessages toText openAiToolsFormat (rest.dropWhile isTool)
    else spokenMessage toText openAiToolsFormat m :: buildAnthropicMessages toText openAiToolsFormat rest
termination_by messages => messages.length
decreasing_by
  · exact Nat.lt_succ_self _
  · exact Nat.lt_succ_of_le (List.dropWhile_sublist _).length_le
  · exact Nat.lt_succ_self _

/-- `get_mut` of a field. -/
def modifyField (key : String) (f : Json → Json) : Json → Json
  | .obj fields => .obj (fields.map fun field => if field.1 = key then (field.1, f field.2) else field)
  | v => v

def ephemeral : Json := .obj [("type", .str "ephemeral")]

def cachedText (text : Json) : Json := .arr [.obj [("type", .str "text"), ("text", text), ("cache_control", ephemeral)]]

/-- `last["cache_control"] = ..`, of a block that has a type. -/
def withCacheControl : Json → Json
  | .obj fields => .obj (fields.filter (fun field => field.1 ≠ "cache_control") ++ [("cache_control", ephemeral)])
  | v => v

def isTextBlock (block : Json) : Bool := (block.get "type").bind Json.asStr = some "text"

def cacheContent : Json → Json
  | .str text => cachedText (.str text)
  | .arr blocks =>
    match blocks.getLast? with
    | some last => if isTextBlock last then .arr (blocks.dropLast ++ [withCacheControl last]) else .arr blocks
    | none => .arr blocks
  | v => v

def applyCacheControlToMessage (msg : Json) : Json := modifyField "content" cacheContent msg

/-- The last three messages get a breakpoint, from the last on. -/
def buildAnthropicMessagesWithCache (toText : Json → String) (messages : List ChatMessage) : List Json :=
  let jsonMessages := buildAnthropicMessages toText false messages
  (List.range (min 3 jsonMessages.length)).foldl
    (fun built i => built.modify (jsonMessages.length - 1 - i) applyCacheControlToMessage) jsonMessages

structure ToolDefinition where
  name : String
  description : String
  parameters : Json

namespace ToolDefinition

def toAnthropicJson (t : ToolDefinition) : Json :=
  .obj [("name", .str t.name), ("description", .str t.description), ("input_schema", t.parameters)]

def toOpenAiCompatJson (t : ToolDefinition) : Json :=
  .obj [("type", .str "function"), ("function", .obj [("name", .str t.name), ("description", .str t.description),
    ("parameters", t.parameters)])]

end ToolDefinition

inductive ToolChoice where
  | auto
  | none
  | required
  | specific (name : String)

def ToolChoice.toAnthropicJson : ToolChoice → Json
  | auto => .obj [("type", .str "auto")]
  | none => .obj [("type", .str "none")]
  | required => .obj [("type", .str "any")]
  | specific name => .obj [("type", .str "tool"), ("name", .str name)]

/-- The request, its messages apart. -/
structure CompletionRequest where
  model : String
  maxTokens : Option Nat
  /-- `Value::from` of the temperature. -/
  temperature : Option Json
  tools : Option (List ToolDefinition)
  toolChoice : Option ToolChoice
  enableCache : Bool

def systemField (req : CompletionRequest) (systemText : Option String) : List (String × Json) :=
  match systemText with
  | some sys => [("system", if req.enableCache then cachedText (.str sys) else .str sys)]
  | none => []

/-- The fields behind the system text; the cache does not reach them. -/
def laterFields (req : CompletionRequest) (stream openAiToolsFormat : Bool) : List (String × Json) :=
  (if stream then [("stream", .bool true)] else [] : List (String × Json)) ++
  (match req.temperature with | some temp => [("temperature", temp)] | none => [] : List (String × Json)) ++
  (match req.tools with
    | some tools => [("tools", .arr (tools.map fun t =>
        if openAiToolsFormat then t.toOpenAiCompatJson else t.toAnthropicJson))]
    | none => [] : List (String × Json)) ++
  (match req.toolChoice with | some choice => [("tool_choice", choice.toAnthropicJson)] | none => [] : List (String × Json))

def buildAnthropicBody (toText : Json → String) (req : CompletionRequest) (systemText : Option String)
    (humanMsgs : List ChatMessage) (stream openAiToolsFormat : Bool) : Json :=
  let messages :=
    if req.enableCache then buildAnthropicMessagesWithCache toText humanMsgs
    else buildAnthropicMessages toText openAiToolsFormat humanMsgs
  .obj (([("model", .str req.model), ("messages", .arr messages), ("max_tokens", .nat (req.maxTokens.getD 1024))] :
      List (String × Json)) ++
    systemField req systemText ++ laterFields req stream openAiToolsFormat)

/-! Reading a request back -/

inductive Item where
  | text (text : String)
  | call (call : ToolCall)
  | result (toolCallId : Option String) (content : String)
  deriving DecidableEq

/-- What a message brings. Before tool calls an empty text is none. -/
def itemsOf (m : ChatMessage) : List Item :=
  if isTool m then .result m.toolCallId m.content :: m.toolCalls.map .call
  else if m.toolCalls = [] then [.text m.content]
  else (if m.content = "" then [] else [.text m.content]) ++ m.toolCalls.map .call

def readText (block : Json) (key : String) : Option String := (block.get key).bind Json.asStr

def readBlock (block : Json) : Option Item :=
  let kind := readText block "type"
  if kind = some "text" then (readText block "text").map .text
  else if kind = some "tool_use" then
    (readText block "id").bind fun id => (readText block "name").bind fun name =>
      (block.get "input").map fun input => .call ⟨id, name, input⟩
  else if kind = some "tool_result" then (readText block "content").map (.result (readText block "tool_use_id"))
  else none

def readMessage (msg : Json) : List Item :=
  match msg.get "content" with
  | some (.str text) => [.text text]
  | some (.arr blocks) => blocks.filterMap readBlock
  | _ => []

/-- What is sent of a message: of a tool's message, its result. -/
def sentOf (m : ChatMessage) : List Item := if isTool m then [.result m.toolCallId m.content] else itemsOf m

section

variable {toText : Json → String} {m : ChatMessage} {run before rest after messages : List ChatMessage}

theorem readBlock_toolResult : readBlock (toolResult m) = some (.result m.toolCallId m.content) := by
  unfold toolResult resultId
  cases m.toolCallId <;> simp [readBlock,readText,Json.get,Json.lookup,Json.asStr,Json.ofOption]

theorem readBlock_toolUse (tc : ToolCall) : readBlock (toolUse tc) = some (.call tc) := by
  simp [readBlock,readText,toolUse,Json.get,Json.lookup,Json.asStr]

theorem filterMap_thinking : (thinkingBlocks m).filterMap readBlock = [] := by
  unfold thinkingBlocks
  split
  · split
    · rfl
    · simp [readBlock,readText,Json.get,Json.lookup,Json.asStr]
  · rfl

theorem filterMap_text : (textBlocks m).filterMap readBlock = if m.content = "" then [] else [.text m.content] := by
  unfold textBlocks
  split
  · rfl
  · simp [readBlock,readText,Json.get,Json.lookup,Json.asStr]

theorem readMessage_userResults : readMessage (userResults run) = run.map fun m => .result m.toolCallId m.content := by
  have content : (userResults run).get "content" = some (.arr (run.map toolResult)) := by
    simp [userResults,Json.get,Json.lookup]
  rw [readMessage,content]
  simp only [List.filterMap_map]
  rw [← List.filterMap_eq_map]
  exact List.filterMap_congr fun m _ => readBlock_toolResult

theorem spoken_standard : spokenMessage toText false m = if m.toolCalls = [] then plainMessage m else assistantBlocks m := by
  by_cases calls : m.toolCalls = [] <;> simp [spokenMessage,calls]

theorem readMessage_spoken (other : isTool m = false) : readMessage (spokenMessage toText false m) = itemsOf m := by
  rw [spoken_standard,itemsOf,other,if_neg Bool.false_ne_true]
  by_cases calls : m.toolCalls = []
  · rw [if_pos calls,if_pos calls]
    simp [readMessage,plainMessage,Json.get,Json.lookup]
  · have content : (assistantBlocks m).get "content" = some (.arr (contentBlocks m)) := by
      simp [assistantBlocks,Json.get,Json.lookup]
    have uses : (m.toolCalls.map toolUse).filterMap readBlock = m.toolCalls.map .call := by
      rw [List.filterMap_map,← List.filterMap_eq_map]
      exact List.filterMap_congr fun tc _ => readBlock_toolUse tc
    rw [if_neg calls,if_neg calls,readMessage,content]
    simp only [contentBlocks,List.filterMap_append,filterMap_thinking,filterMap_text,uses]
    simp

/-! The standard format -/

theorem build_tool (tool : isTool m = true) : buildAnthropicMessages toText false (m :: rest) =
    userResults (m :: rest.takeWhile isTool) :: buildAnthropicMessages toText false (rest.dropWhile isTool) := by
  rw [buildAnthropicMessages,if_neg (by simp),if_pos tool]

theorem build_spoken (other : isTool m = false) : buildAnthropicMessages toText false (m :: rest) =
    spokenMessage toText false m :: buildAnthropicMessages toText false rest := by
  rw [buildAnthropicMessages,if_neg (by simp),if_neg (by simp [other])]

/-- A conversation is empty, starts with a run of tool messages, or starts with another message. -/
theorem runs_induction {motive : List ChatMessage → Prop} (nil : motive [])
    (results : ∀ m rest, isTool m = true → motive (rest.dropWhile isTool) → motive (m :: rest))
    (spoken : ∀ m rest, isTool m = false → motive rest → motive (m :: rest)) (messages : List ChatMessage) : motive messages := by
  induction length : messages.length using Nat.strongRecOn generalizing messages with
  | ind n ih =>
    cases messages with
    | nil => exact nil
    | cons m rest =>
      rw [List.length_cons] at length
      cases tool : isTool m with
      | true =>
        have shorter := (List.dropWhile_sublist (l := rest) isTool).length_le
        exact results m rest tool (ih _ (by omega) _ rfl)
      | false => exact spoken m rest tool (ih _ (by omega) _ rfl)

/-- What a request says is what is sent of the messages, in order. -/
theorem read_build (messages : List ChatMessage) :
    (buildAnthropicMessages toText false messages).flatMap readMessage = messages.flatMap sentOf := by
  induction messages using runs_induction with
  | nil => rw [buildAnthropicMessages]; rfl
  | results m rest tool ih =>
    have sent (run : List ChatMessage) (all : ∀ m ∈ run, isTool m = true) :
        run.flatMap sentOf = run.map fun m => .result m.toolCallId m.content := by
      rw [List.map_eq_flatMap]
      exact List.flatMap_congr fun m member => by rw [sentOf,if_pos (all m member)]
    rw [build_tool tool,List.flatMap_cons,ih,readMessage_userResults,← sent,← List.flatMap_append,List.cons_append,
      List.takeWhile_append_dropWhile]
    exact List.forall_mem_cons.mpr ⟨tool, fun m member => List.mem_takeWhile_imp member⟩
  | spoken m rest other ih =>
    rw [build_spoken other,List.flatMap_cons,ih,readMessage_spoken other,List.flatMap_cons,sentOf,if_neg (by simp [other])]

/-- Only the tool calls of tool messages are not sent. -/
theorem sent_eq_iff : messages.flatMap sentOf = messages.flatMap itemsOf ↔
    ∀ m ∈ messages, isTool m = true → m.toolCalls = [] := by
  have count (messages : List ChatMessage) : (messages.flatMap itemsOf).length = (messages.flatMap sentOf).length +
      (messages.map fun m => if isTool m then m.toolCalls.length else 0).sum := by
    induction messages with
    | nil => rfl
    | cons m rest ih =>
      have own : (itemsOf m).length = (sentOf m).length + if isTool m then m.toolCalls.length else 0 := by
        unfold sentOf itemsOf
        split <;> simp [Nat.add_comm]
      simp only [List.flatMap_cons,List.length_append,List.map_cons,List.sum_cons,own,ih]
      omega
  constructor
  · intro same m member tool
    have lengths := count messages
    rw [← same] at lengths
    have none : (messages.map fun m => if isTool m then m.toolCalls.length else 0).sum = 0 := by omega
    have zero := List.sum_eq_zero_iff_forall_eq_nat.mp none _ (List.mem_map_of_mem member)
    simpa [tool] using zero
  · intro none
    refine List.flatMap_congr fun m member => ?_
    unfold sentOf
    split
    · next tool => rw [itemsOf,if_pos tool,none m member tool]; rfl
    · rfl

theorem takeWhile_stop {x : ChatMessage} (other : isTool x = false) :
    (before ++ x :: after).takeWhile isTool = before.takeWhile isTool := by
  induction before with
  | nil => simp [other]
  | cons m rest ih => cases tool : isTool m <;> simp [tool,ih]

theorem dropWhile_stop {x : ChatMessage} (other : isTool x = false) :
    (before ++ x :: after).dropWhile isTool = before.dropWhile isTool ++ x :: after := by
  induction before with
  | nil => simp [other]
  | cons m rest ih => cases tool : isTool m <;> simp [tool,ih]

theorem build_append {x : ChatMessage} (other : isTool x = false) :
    buildAnthropicMessages toText false (before ++ x :: after) =
      buildAnthropicMessages toText false before ++ buildAnthropicMessages toText false (x :: after) := by
  induction before using runs_induction with
  | nil =>
    rw [List.nil_append,buildAnthropicMessages.eq_1,List.nil_append]
  | results m rest tool ih =>
    rw [List.cons_append,build_tool tool,build_tool tool,takeWhile_stop other,dropWhile_stop other,ih,List.cons_append]
  | spoken m rest spoken ih => rw [List.cons_append,build_spoken spoken,ih,build_spoken spoken,List.cons_append]

/-- A maximal run of tool messages becomes one user message. -/
theorem build_run (tools : ∀ m ∈ run, isTool m = true) (some : run ≠ []) (first : ∀ m ∈ before.getLast?, isTool m = false)
    (last : ∀ m ∈ after.head?, isTool m = false) : buildAnthropicMessages toText false (before ++ run ++ after) =
      buildAnthropicMessages toText false before ++ userResults run :: buildAnthropicMessages toText false after := by
  obtain ⟨m, rest, rfl⟩ := List.exists_cons_of_ne_nil some
  obtain ⟨tool, others⟩ := List.forall_mem_cons.mp tools
  have ended : (rest ++ after).takeWhile isTool = rest ∧ (rest ++ after).dropWhile isTool = after := by
    rw [List.takeWhile_append_of_pos others,List.dropWhile_append_of_pos others]
    cases after with
    | nil => simp
    | cons x after =>
      have other : isTool x = false := last x rfl
      simp [other]
  have behind : buildAnthropicMessages toText false (m :: rest ++ after) =
      userResults (m :: rest) :: buildAnthropicMessages toText false after := by
    rw [List.cons_append,build_tool tool,ended.1,ended.2]
  rw [List.append_assoc]
  rcases List.eq_nil_or_concat' before with rfl | ⟨front, x, rfl⟩
  · rw [List.nil_append,behind,buildAnthropicMessages.eq_1,List.nil_append]
  · have other : isTool x = false := first x (by simp)
    rw [List.append_assoc,List.singleton_append,build_append other,build_append other,build_spoken other,behind,
      build_spoken other,buildAnthropicMessages.eq_1]
    simp

end

/-! Calls and their answers -/

def blocksOf (msg : Json) : List Json := ((msg.get "content").bind Json.asArray).getD []

def toolUseIds (msg : Json) : List String :=
  (blocksOf msg).filterMap fun block => if readText block "type" = some "tool_use" then readText block "id" else none

def toolResultIds (msg : Json) : List String :=
  (blocksOf msg).filterMap fun block => if readText block "type" = some "tool_result" then readText block "tool_use_id" else none

/-- Every `tool_use` block is answered in the message behind it. -/
def Answered : List Json → Prop
  | [] => True
  | msg :: rest => (∀ id ∈ toolUseIds msg, ∃ next ∈ rest.head?, id ∈ toolResultIds next) ∧ Answered rest

/-- The ids the tool messages at the front answer. -/
def answers (rest : List ChatMessage) : List (Option String) := (rest.takeWhile isTool).map ChatMessage.toolCallId

/-- Behind an assistant's calls stand the answers to them and no others. -/
def AssistantsAnswered : List ChatMessage → Prop
  | [] => True
  | m :: rest => (m.role = "assistant" → m.toolCalls ≠ [] → (answers rest).Perm (m.toolCalls.map fun tc => some tc.id)) ∧
    AssistantsAnswered rest

/-- The calls of every message that is not a tool's are answered. -/
def CallersAnswered : List ChatMessage → Prop
  | [] => True
  | m :: rest => (isTool m = false → ∀ tc ∈ m.toolCalls, some tc.id ∈ answers rest) ∧ CallersAnswered rest

section

variable {toText : Json → String} {m : ChatMessage} {run rest messages : List ChatMessage}

theorem blocksOf_userResults : blocksOf (userResults run) = run.map toolResult := by
  simp [blocksOf,userResults,Json.get,Json.lookup,Json.asArray]

theorem blocksOf_spoken : blocksOf (spokenMessage toText false m) = if m.toolCalls = [] then [] else contentBlocks m := by
  rw [spoken_standard]
  split <;> simp [blocksOf,plainMessage,assistantBlocks,Json.get,Json.lookup,Json.asArray]

theorem toolUseIds_userResults : toolUseIds (userResults run) = [] := by
  rw [toolUseIds,blocksOf_userResults,List.filterMap_map,List.filterMap_eq_nil_iff]
  intro m _
  simp [readText,toolResult,Json.get,Json.lookup,Json.asStr]

theorem toolResultIds_userResults : toolResultIds (userResults run) = run.filterMap ChatMessage.toolCallId := by
  rw [toolResultIds,blocksOf_userResults,List.filterMap_map]
  refine List.filterMap_congr fun m _ => ?_
  cases id : m.toolCallId <;> simp [readText,toolResult,resultId,id,Json.get,Json.lookup,Json.asStr,Json.ofOption]

theorem filterMap_contentBlocks (kind key : String) (front : kind ≠ "thinking" ∧ kind ≠ "text") :
    (contentBlocks m).filterMap (fun block => if readText block "type" = some kind then readText block key else none) =
      (m.toolCalls.map toolUse).filterMap fun block => if readText block "type" = some kind then readText block key else none := by
  have thinking : ∀ block ∈ thinkingBlocks m, readText block "type" = some "thinking" := by
    unfold thinkingBlocks
    split
    · split <;> simp [readText,Json.get,Json.lookup,Json.asStr]
    · simp
  have text : ∀ block ∈ textBlocks m, readText block "type" = some "text" := by
    unfold textBlocks
    split <;> simp [readText,Json.get,Json.lookup,Json.asStr]
  rw [contentBlocks,List.filterMap_append,List.append_left_eq_self,List.filterMap_eq_nil_iff]
  intro block member
  rcases List.mem_append.mp member with here | here
  · rw [thinking block here,if_neg fun same => front.1 (Option.some.inj same).symm]
  · rw [text block here,if_neg fun same => front.2 (Option.some.inj same).symm]

theorem toolUseIds_spoken : toolUseIds (spokenMessage toText false m) = m.toolCalls.map ToolCall.id := by
  rw [toolUseIds,blocksOf_spoken]
  split
  · next none => rw [none]; rfl
  · rw [filterMap_contentBlocks "tool_use" "id" (by decide),List.filterMap_map,← List.filterMap_eq_map]
    refine List.filterMap_congr fun tc _ => ?_
    simp [readText,toolUse,Json.get,Json.lookup,Json.asStr]

theorem toolResultIds_spoken : toolResultIds (spokenMessage toText false m) = [] := by
  rw [toolResultIds,blocksOf_spoken]
  split
  · rfl
  · rw [filterMap_contentBlocks "tool_result" "tool_use_id" (by decide),List.filterMap_map,List.filterMap_eq_nil_iff]
    intro tc _
    simp [readText,toolUse,Json.get,Json.lookup,Json.asStr]

/-- The message behind answers what the tool messages at the front answer. -/
theorem head_answers {id : String} : (∃ next ∈ (buildAnthropicMessages toText false rest).head?, id ∈ toolResultIds next) ↔
    some id ∈ answers rest := by
  cases rest with
  | nil => rw [buildAnthropicMessages]; simp [answers]
  | cons m rest =>
    cases tool : isTool m with
    | true => rw [build_tool tool]; simp [answers,tool,toolResultIds_userResults,eq_comm]
    | false => rw [build_spoken tool]; simp [answers,tool,toolResultIds_spoken]

theorem callersAnswered_dropWhile : CallersAnswered (rest.dropWhile isTool) ↔ CallersAnswered rest := by
  induction rest with
  | nil => rfl
  | cons m rest ih =>
    cases tool : isTool m with
    | true => rw [List.dropWhile_cons_of_pos tool,ih,CallersAnswered]; simp [tool]
    | false => rw [List.dropWhile_cons_of_neg (by simp [tool])]

theorem answered_iff : Answered (buildAnthropicMessages toText false messages) ↔ CallersAnswered messages := by
  induction messages using runs_induction with
  | nil => rw [buildAnthropicMessages]; rfl
  | results m rest tool ih =>
    rw [build_tool tool,Answered,ih,toolUseIds_userResults,callersAnswered_dropWhile,CallersAnswered]
    simp [tool]
  | spoken m rest other ih =>
    rw [build_spoken other,Answered,ih,toolUseIds_spoken,CallersAnswered]
    simp only [head_answers,List.mem_map,forall_exists_index,and_imp,forall_apply_eq_imp_iff₂,other,true_imp_iff]

end

/-! Taking the cache out again -/

def dropCacheControl : Json → Json
  | .obj fields => .obj (fields.filter fun field => field.1 ≠ "cache_control")
  | v => v

/-- Without `cache_control`; a single text block is its text. -/
def unwrapContent : Json → Json
  | .arr blocks =>
    match blocks.map dropCacheControl with
    | [block] => if isTextBlock block then (block.get "text").getD block else .arr [block]
    | plain => .arr plain
  | v => v

def stripMessage (msg : Json) : Json := modifyField "content" unwrapContent msg

def stripMessages : Json → Json
  | .arr messages => .arr (messages.map stripMessage)
  | v => v

def stripBody (body : Json) : Json := modifyField "system" unwrapContent (modifyField "messages" stripMessages body)

section

variable {toText : Json → String} {m : ChatMessage} {run messages : List ChatMessage}

theorem modifyField_modifyField (key : String) (f g : Json → Json) (v : Json) :
    modifyField key f (modifyField key g v) = modifyField key (fun v => f (g v)) v := by
  cases v with
  | obj fields =>
    simp only [modifyField,List.map_map]
    congr 1
    refine List.map_congr_left fun field _ => ?_
    by_cases same : field.1 = key <;> simp [same]
  | _ => rfl

theorem dropCacheControl_with (block : Json) : dropCacheControl (withCacheControl block) = dropCacheControl block := by
  cases block with
  | obj fields => simp [withCacheControl,dropCacheControl]
  | _ => rfl

theorem unwrapContent_cached (content : Json) : unwrapContent (cacheContent content) = unwrapContent content := by
  cases content with
  | str text => simp [cacheContent,cachedText,unwrapContent,dropCacheControl,isTextBlock,Json.get,Json.lookup,Json.asStr]
  | arr blocks =>
    rcases List.eq_nil_or_concat' blocks with rfl | ⟨front, last, rfl⟩
    · rfl
    · have same : (front ++ [withCacheControl last]).map dropCacheControl = (front ++ [last]).map dropCacheControl := by
        simp [dropCacheControl_with]
      rw [cacheContent]
      simp only [List.getLast?_append,List.getLast?_singleton,Option.some_or,List.dropLast_concat]
      split
      · rw [unwrapContent,unwrapContent,same]
      · rfl
  | _ => rfl

theorem stripMessage_cached (msg : Json) : stripMessage (applyCacheControlToMessage msg) = stripMessage msg := by
  rw [stripMessage,applyCacheControlToMessage,modifyField_modifyField]
  simp only [unwrapContent_cached]
  rfl

/-- Blocks the cache leaves alone: no `cache_control`, and at the end no text. -/
theorem unwrapContent_blocks {front : List Json} {last : Json} (plain : ∀ block ∈ front ++ [last], dropCacheControl block = block)
    (other : isTextBlock last = false) : unwrapContent (.arr (front ++ [last])) = .arr (front ++ [last]) := by
  rw [unwrapContent,List.map_congr_left plain,List.map_id']
  cases front with
  | nil => simp [other]
  | cons first rest => cases rest <;> simp

theorem plain_toolUse (tc : ToolCall) : dropCacheControl (toolUse tc) = toolUse tc ∧ isTextBlock (toolUse tc) = false := by
  simp [toolUse,dropCacheControl,isTextBlock,Json.get,Json.lookup,Json.asStr]

theorem plain_toolResult : dropCacheControl (toolResult m) = toolResult m ∧ isTextBlock (toolResult m) = false := by
  simp [toolResult,dropCacheControl,isTextBlock,Json.get,Json.lookup,Json.asStr]

theorem plain_front : ∀ block ∈ thinkingBlocks m ++ textBlocks m, dropCacheControl block = block := by
  intro block member
  rcases List.mem_append.mp member with here | here
  · unfold thinkingBlocks at here
    split at here
    · split at here
      · cases here
      · rw [List.mem_singleton.mp here]
        simp [dropCacheControl]
    · cases here
  · unfold textBlocks at here
    split at here
    · cases here
    · rw [List.mem_singleton.mp here]
      simp [dropCacheControl]

theorem unwrap_contentBlocks (calls : m.toolCalls ≠ []) : unwrapContent (.arr (contentBlocks m)) = .arr (contentBlocks m) := by
  rcases List.eq_nil_or_concat' m.toolCalls with none | ⟨front, last, whole⟩
  · exact absurd none calls
  · have ended : contentBlocks m = (thinkingBlocks m ++ textBlocks m ++ front.map toolUse) ++ [toolUse last] := by
      rw [contentBlocks,whole]
      simp
    rw [ended]
    refine unwrapContent_blocks (fun block member => ?_) (plain_toolUse last).2
    simp only [List.append_assoc,List.mem_append,List.mem_map,List.mem_singleton] at member
    rcases member with here | here | ⟨tc, -, rfl⟩ | rfl
    · exact plain_front block (List.mem_append_left _ here)
    · exact plain_front block (List.mem_append_right _ here)
    · exact (plain_toolUse tc).1
    · exact (plain_toolUse last).1

theorem strip_content {role content : Json} (plain : unwrapContent content = content) :
    stripMessage (.obj [("role", role), ("content", content)]) = .obj [("role", role), ("content", content)] := by
  simp [stripMessage,modifyField,plain]

theorem strip_userResults (some : run ≠ []) : stripMessage (userResults run) = userResults run := by
  refine strip_content ?_
  rcases List.eq_nil_or_concat' run with none | ⟨front, last, rfl⟩
  · exact absurd none some
  · rw [List.map_append,List.map_singleton]
    refine unwrapContent_blocks (fun block member => ?_) plain_toolResult.2
    simp only [List.mem_append,List.mem_map,List.mem_singleton] at member
    rcases member with ⟨m, -, rfl⟩ | rfl
    · exact plain_toolResult.1
    · exact plain_toolResult.1

theorem strip_spoken : stripMessage (spokenMessage toText false m) = spokenMessage toText false m := by
  rw [spoken_standard]
  split
  · exact strip_content rfl
  · next calls => exact strip_content (unwrap_contentBlocks calls)

/-- There is nothing of the cache in messages built without it. -/
theorem strip_build (messages : List ChatMessage) : (buildAnthropicMessages toText false messages).map stripMessage =
    buildAnthropicMessages toText false messages := by
  induction messages using runs_induction with
  | nil => rw [buildAnthropicMessages]; rfl
  | results m rest tool ih => rw [build_tool tool,List.map_cons,ih,strip_userResults (List.cons_ne_nil _ _)]
  | spoken m rest other ih => rw [build_spoken other,List.map_cons,ih,strip_spoken]

theorem strip_modify (built : List Json) (n : Nat) :
    (built.modify n applyCacheControlToMessage).map stripMessage = built.map stripMessage := by
  induction built generalizing n with
  | nil => simp
  | cons msg built ih => cases n <;> simp [stripMessage_cached,ih]

theorem strip_withCache (messages : List ChatMessage) : (buildAnthropicMessagesWithCache toText messages).map stripMessage =
    buildAnthropicMessages toText false messages := by
  have turns (positions : List Nat) (place : Nat → Nat) (built : List Json) :
      (positions.foldl (fun built i => built.modify (place i) applyCacheControlToMessage) built).map stripMessage =
        built.map stripMessage := by
    induction positions generalizing built with
    | nil => rfl
    | cons i positions ih => rw [List.foldl_cons,ih,strip_modify]
  rw [buildAnthropicMessagesWithCache,turns,strip_build]

/-- The formats agree on conversations without tools only. -/
theorem formats_iff : buildAnthropicMessages toText false messages = buildAnthropicMessages toText true messages ↔
    ∀ m ∈ messages, isTool m = false ∧ m.toolCalls = [] := by
  induction messages with
  | nil => simp [buildAnthropicMessages]
  | cons m rest ih =>
    cases tool : isTool m with
    | true =>
      rw [build_tool tool,buildAnthropicMessages,if_pos ⟨tool, rfl⟩]
      simp [userResults,toolMessage,tool]
    | false =>
      rw [build_spoken tool,buildAnthropicMessages,if_neg (by simp [tool]),if_neg (by simp [tool]),List.forall_mem_cons,← ih]
      by_cases calls : m.toolCalls = []
      · simp [spokenMessage,calls,tool]
      · simp [spokenMessage,calls,assistantBlocks,openAiAssistant]

/-- The later fields are neither messages nor system text. -/
theorem laterFields_keys (req : CompletionRequest) (stream openAi : Bool) : ∀ field ∈ laterFields req stream openAi,
    field.1 ≠ "messages" ∧ field.1 ≠ "system" := by
  unfold laterFields
  cases stream <;> cases req.temperature <;> cases req.tools <;> cases req.toolChoice <;> simp

theorem strip_laterFields (req : CompletionRequest) (stream openAi : Bool) (f g : Json → Json) :
    (((laterFields req stream openAi).map fun field => if field.1 = "messages" then (field.1, f field.2) else field).map
      fun field => if field.1 = "system" then (field.1, g field.2) else field) = laterFields req stream openAi := by
  have first := List.map_congr_left (f := fun field : String × Json => if field.1 = "messages" then (field.1, f field.2) else field)
    (g := id) fun field member => if_neg (laterFields_keys req stream openAi field member).1
  have second := List.map_congr_left (f := fun field : String × Json => if field.1 = "system" then (field.1, g field.2) else field)
    (g := id) fun field member => if_neg (laterFields_keys req stream openAi field member).2
  rw [first,List.map_id,second,List.map_id]

theorem stripBody_cached (req : CompletionRequest) (systemText : Option String) (stream openAi : Bool) :
    stripBody (buildAnthropicBody toText { req with enableCache := true } systemText messages stream openAi) =
      .obj (([("model", .str req.model), ("messages", .arr (buildAnthropicMessages toText false messages)),
        ("max_tokens", .nat (req.maxTokens.getD 1024))] : List (String × Json)) ++
        systemField { req with enableCache := false } systemText ++
        laterFields req stream openAi) := by
  have later : laterFields { req with enableCache := true } stream openAi = laterFields req stream openAi := rfl
  have system (sys : String) : unwrapContent (cachedText (.str sys)) = .str sys := unwrapContent_cached (.str sys)
  simp only [buildAnthropicBody,stripBody,modifyField,List.map_append,later,strip_laterFields]
  cases systemText <;> simp [systemField,stripMessages,strip_withCache,system]

/-- The cached body is the plain one, but for a conversation with tools in the format of OpenAI. -/
theorem body_iff (toText : Json → String) (messages : List ChatMessage) (req : CompletionRequest) (systemText : Option String) (stream openAi : Bool) :
    stripBody (buildAnthropicBody toText { req with enableCache := true } systemText messages stream openAi) =
        buildAnthropicBody toText { req with enableCache := false } systemText messages stream openAi ↔
      openAi = false ∨ ∀ m ∈ messages, isTool m = false ∧ m.toolCalls = [] := by
  have later : laterFields { req with enableCache := false } stream openAi = laterFields req stream openAi := rfl
  rw [stripBody_cached,buildAnthropicBody,later]
  cases openAi with
  | false => simp
  | true => simp [formats_iff]

end

/-- The conversation as it is sent in the standard format: content and order, runs of results, answers. -/
structure KeepsConversation (toText : Json → String) (messages : List ChatMessage) : Prop where
  content : (buildAnthropicMessages toText false messages).flatMap readMessage = messages.flatMap itemsOf
  runs : ∀ before run after, messages = before ++ run ++ after → run ≠ [] → (∀ m ∈ run, isTool m = true) →
    (∀ m ∈ before.getLast?, isTool m = false) → (∀ m ∈ after.head?, isTool m = false) →
    buildAnthropicMessages toText false messages = buildAnthropicMessages toText false before ++
      userResults run :: buildAnthropicMessages toText false after
  answered : AssistantsAnswered messages → Answered (buildAnthropicMessages toText false messages)

theorem keepsConversation_iff {toText : Json → String} {messages : List ChatMessage} : KeepsConversation toText messages ↔
    (∀ m ∈ messages, isTool m = true → m.toolCalls = []) ∧ (AssistantsAnswered messages → CallersAnswered messages) := by
  constructor
  · rintro ⟨content, -, answered⟩
    rw [read_build,sent_eq_iff] at content
    exact ⟨content, fun all => answered_iff.mp (answered all)⟩
  · rintro ⟨none, answered⟩
    refine ⟨by rw [read_build,sent_eq_iff.mpr none], ?_, fun all => answered_iff.mpr (answered all)⟩
    rintro before run after rfl some tools first last
    exact build_run tools some first last

/-- A conversation is kept when no result carries calls and no caller but an assistant lacks answers; the cache
changes nothing else when the tools are in the standard format or there are none. -/
theorem request_exact (toText : Json → String) (messages : List ChatMessage) (req : CompletionRequest)
    (systemText : Option String) (humanMsgs : List ChatMessage) (stream openAi : Bool) :
    (KeepsConversation toText messages ∧
      stripBody (buildAnthropicBody toText { req with enableCache := true } systemText humanMsgs stream openAi) =
        buildAnthropicBody toText { req with enableCache := false } systemText humanMsgs stream openAi) ↔
    ((∀ m ∈ messages, isTool m = true → m.toolCalls = []) ∧ (AssistantsAnswered messages → CallersAnswered messages)) ∧
      (openAi = false ∨ ∀ m ∈ humanMsgs, isTool m = false ∧ m.toolCalls = []) :=
  and_congr keepsConversation_iff (body_iff toText humanMsgs req systemText stream openAi)

def toolExchange : List ChatMessage :=
  [⟨"user", "What time is it?", [], none, none, none⟩,
    ⟨"assistant", "", [⟨"call_1", "clock", .obj []⟩], none, none, none⟩,
    ⟨"tool", "noon", [], some "call_1", none, none⟩]

/-- With the cache the exchange is in the standard format, whatever format is asked for. -/
theorem openAi_cached_differs :
    stripBody (buildAnthropicBody (fun _ => "{}") ⟨"claude", none, none, none, none, true⟩ none toolExchange false true) ≠
      buildAnthropicBody (fun _ => "{}") ⟨"claude", none, none, none, none, false⟩ none toolExchange false true := by
  have differs := body_iff (fun _ => "{}") toolExchange ⟨"claude", none, none, none, none, false⟩ none
    false true
  intro same
  rcases differs.mp same with standard | plain
  · cases standard
  · exact absurd (plain _ (List.mem_cons_of_mem _ List.mem_cons_self)).2 (List.cons_ne_nil _ _)

end Zaion.Provider.AnthropicRequest
