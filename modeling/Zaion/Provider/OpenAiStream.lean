import Mathlib.Data.List.GetD
import Zaion.Lib.Tree
import Zaion.Provider.OpenAi

/-! What a stream of chat completion chunks puts together, for every way to cut an assistant
message into chunks, against the answer to the same message in one body. -/
namespace Zaion.Provider.OpenAi

open Lib

/-- An assistant message with how it ended and what it used. -/
structure AssistantMessage where
  content : String
  reasoning : String
  toolCalls : List OpenAiToolCall
  finishReason : Option String
  usage : OpenAiUsage

/-- The body is the message in one piece. -/
structure Carries (serde : Serde) (m : AssistantMessage) (rawBody : String) : Prop where
  decodes : ∃ json parsed choice rest, containsText rawBody "\"choices\":null" = false ∧ serde.value rawBody = .ok json ∧
    json.get "choices" ≠ none ∧ serde.responseOfValue json = .ok parsed ∧ parsed.choices = choice :: rest ∧
    parsed.usage = some m.usage ∧ choice.finishReason = m.finishReason ∧
    choice.message.content.getD "" = m.content ∧ choice.message.reasoningContent.getD "" = m.reasoning ∧
    choice.message.audioContent.getD "" = "" ∧ choice.message.reasoningDetails.getD [] = [] ∧
    choice.message.toolCalls.getD [] = m.toolCalls

/-- The last value there is. -/
def latest {α : Type} : List (Option α) → Option α
  | [] => none
  | o :: rest => (latest rest).or o

namespace OpenAiStreamToolCall

def name (d : OpenAiStreamToolCall) : Option String := d.function.bind OpenAiStreamFunction.name
def arguments (d : OpenAiStreamToolCall) : String := (d.function.bind OpenAiStreamFunction.arguments).getD ""

end OpenAiStreamToolCall

/-- The deltas with an index, in order, are one call: its id, its name and its arguments cut
anywhere. -/
structure Assembles (deltas : List OpenAiStreamToolCall) (calls : List OpenAiToolCall) : Prop where
  bound : ∀ d ∈ deltas, d.index < calls.length
  ids : ∀ (i : Nat) (call : OpenAiToolCall), calls[i]? = some call →
    latest ((deltas.filter (fun d => d.index = i)).map OpenAiStreamToolCall.id) = some call.id
  names : ∀ (i : Nat) (call : OpenAiToolCall), calls[i]? = some call →
    latest ((deltas.filter (fun d => d.index = i)).map OpenAiStreamToolCall.name) = some call.function.name
  arguments : ∀ (i : Nat) (call : OpenAiToolCall), calls[i]? = some call →
    String.join ((deltas.filter (fun d => d.index = i)).map OpenAiStreamToolCall.arguments) = call.function.arguments

namespace OpenAiStreamChunk

def delta (c : OpenAiStreamChunk) : Option OpenAiStreamDelta := c.choices.head?.map OpenAiStreamChoice.delta
def content (c : OpenAiStreamChunk) : Option String := c.delta.bind OpenAiStreamDelta.content
def reasoning (c : OpenAiStreamChunk) : Option String := c.delta.bind OpenAiStreamDelta.reasoningContent
def audio (c : OpenAiStreamChunk) : Option String := c.delta.bind OpenAiStreamDelta.audioContent
def calls (c : OpenAiStreamChunk) : List OpenAiStreamToolCall := (c.delta.bind OpenAiStreamDelta.toolCalls).getD []
def finish (c : OpenAiStreamChunk) : Option String := c.choices.head?.bind OpenAiStreamChoice.finishReason

/-- The text a stream takes from the chunk. -/
def text (c : OpenAiStreamChunk) : String := ((c.content.or c.audio).or c.reasoning).getD ""

end OpenAiStreamChunk

/-- The chunks are the message: its reasoning, then its content, then its tool calls, and the
usage at the end. -/
structure Cuts (m : AssistantMessage) (chunks : List OpenAiStreamChunk) : Prop where
  pieces : ∃ (reasoning content tools : List OpenAiStreamChunk) (last : OpenAiStreamChunk),
    chunks = reasoning ++ content ++ tools ++ [last] ∧
    (∀ c ∈ reasoning, c.content = none ∧ c.audio = none ∧ c.calls = [] ∧ c.usage = none) ∧
    String.join (reasoning.map (fun c => c.reasoning.getD "")) = m.reasoning ∧
    (∀ c ∈ content, c.reasoning = none ∧ c.audio = none ∧ c.calls = [] ∧ c.usage = none) ∧
    String.join (content.map (fun c => c.content.getD "")) = m.content ∧
    (∀ c ∈ tools, c.content = none ∧ c.reasoning = none ∧ c.audio = none ∧ c.usage = none) ∧
    Assembles (tools.flatMap OpenAiStreamChunk.calls) m.toolCalls ∧
    last.text = "" ∧ last.calls = [] ∧ last.usage = some m.usage
  finish : latest (chunks.map OpenAiStreamChunk.finish) = m.finishReason

/-- The line is a chat completion chunk: only a chunk without choices also decodes as a whole
answer, and it is no event of the responses API. -/
structure ChunkLine (serde : Serde) (line : String) (c : OpenAiStreamChunk) : Prop where
  decodes : ∃ data, line = "data: " ++ data ∧ data ≠ "[DONE]" ∧ serde.chunk data = some c ∧
    (∀ full, serde.response data = some full → full.choices = [] ∧ c.choices = [] ∧ full.usage = c.usage) ∧
    ∀ event, serde.value data = .ok event → event.get "type" = none

/-- The lines send the chunks, up to the mark of the end. -/
inductive Sends (serde : Serde) : List OpenAiStreamChunk → List (Except String String) → Prop where
  | done (rest) : Sends serde [] (.ok "data: [DONE]" :: rest)
  | skip {chunks rest} (line : String) (other : startsWithText line "data: " = false) (later : Sends serde chunks rest) :
    Sends serde chunks (.ok line :: rest)
  | chunk {chunks rest} (line : String) (c : OpenAiStreamChunk) (here : ChunkLine serde line c)
    (later : Sends serde chunks rest) : Sends serde (c :: chunks) (.ok line :: rest)

/-- What both decoders answer, the name of the model aside. -/
def outcome (result : Except Failure CompletionResponse) :
    Except Failure (String × List ToolCall × FinishReason × Nat × Nat × Nat × Nat) :=
  result.map (fun r => (r.content, r.toolCalls, r.finishReason, r.inputTokens, r.outputTokens, r.cacheReadTokens,
    r.cacheWriteTokens))

/-- Not both texts, and with tool calls a finish reason that says so; or nothing to show at all. -/
def Agrees (m : AssistantMessage) : Prop :=
  (m.toolCalls = [] ∧ trim (m.reasoning ++ m.content) = "") ∨
  ((m.content = "" ∨ m.reasoning = "") ∧ (m.toolCalls = [] ∨ parseOpenaiFinishReason m.finishReason ≠ .stop))

namespace StreamState

variable (s : StreamState)

@[simp] theorem appendStreamText_fullContent (text : String) : (s.appendStreamText text).fullContent = s.fullContent ++ text := by
  unfold appendStreamText
  split <;> simp_all

@[simp] theorem appendStreamText_finishReason (text : String) : (s.appendStreamText text).finishReason = s.finishReason := by
  unfold appendStreamText
  split <;> rfl

@[simp] theorem appendStreamText_entries (text : String) : (s.appendStreamText text).entries = s.entries := by
  unfold appendStreamText
  split <;> rfl

/-- The four counts. -/
def tokens : Nat × Nat × Nat × Nat := (s.inputTokens, s.outputTokens, s.cacheReadTokens, s.cacheWriteTokens)

@[simp] theorem appendStreamText_tokens (text : String) : (s.appendStreamText text).tokens = s.tokens := by
  unfold appendStreamText
  split <;> rfl

@[simp] theorem applyUsage_fullContent (usage : Option OpenAiUsage) : (s.applyUsage usage).fullContent = s.fullContent := by
  cases usage <;> rfl

@[simp] theorem applyUsage_finishReason (usage : Option OpenAiUsage) : (s.applyUsage usage).finishReason = s.finishReason := by
  cases usage <;> rfl

@[simp] theorem applyUsage_entries (usage : Option OpenAiUsage) : (s.applyUsage usage).entries = s.entries := by
  cases usage <;> rfl

theorem applyUsage_applyUsage (usage : Option OpenAiUsage) : (s.applyUsage usage).applyUsage usage = s.applyUsage usage := by
  cases usage with
  | none => rfl
  | some u =>
    simp only [applyUsage,applyUsageTokens]
    split <;> split <;> split <;> split <;> rfl

variable {s}

/-- On counts of zero the counts of a usage are taken as they are. -/
theorem applyUsage_tokens (zero : s.tokens = (0, 0, 0, 0)) (u : OpenAiUsage) : (s.applyUsage (some u)).tokens =
    (u.promptTokensNormalized, u.completionTokensNormalized, u.cacheReadTokens, u.cacheWriteTokens) := by
  have kept (n : Nat) : (if 0 < n then n else 0) = n := by split <;> omega
  simp only [tokens,Prod.mk.injEq] at zero
  obtain ⟨input, output, read, write⟩ := zero
  simp only [tokens,applyUsage,applyUsageTokens,input,output,read,write,kept]

/-- What the first choice of a chunk adds. -/
theorem applyChoice_fields (choice : OpenAiStreamChoice) :
    (s.applyChoice choice).fullContent =
      s.fullContent ++ ((choice.delta.content.or choice.delta.audioContent).or choice.delta.reasoningContent).getD "" ∧
    (s.applyChoice choice).entries = (choice.delta.toolCalls.getD []).foldl processDelta s.entries ∧
    (s.applyChoice choice).finishReason =
      (choice.finishReason.map (fun r => parseOpenaiFinishReason (some r))).getD s.finishReason ∧
    (s.applyChoice choice).tokens = s.tokens := by
  obtain ⟨delta, reason⟩ := choice
  unfold applyChoice
  dsimp only
  cases (delta.content.or delta.audioContent).or delta.reasoningContent with
  | none => cases reason <;> simp [tokens]
  | some token =>
    cases reason with
    | none =>
      refine ⟨by simp, by simp, by simp, ?_⟩
      exact appendStreamText_tokens s token
    | some r =>
      refine ⟨by simp, by simp, by simp, ?_⟩
      exact appendStreamText_tokens { s with finishReason := parseOpenaiFinishReason (some r) } token

/-- What a chunk adds. -/
theorem applyChunk_fields (s : StreamState) (c : OpenAiStreamChunk) :
    (s.applyChunk c).fullContent = s.fullContent ++ c.text ∧
    (s.applyChunk c).entries = c.calls.foldl processDelta s.entries ∧
    (s.applyChunk c).finishReason = (c.finish.map (fun r => parseOpenaiFinishReason (some r))).getD s.finishReason ∧
    (s.applyChunk c).tokens = (s.applyUsage c.usage).tokens := by
  have counts : ({ s with modelName := c.model.getD s.modelName }.applyUsage c.usage).tokens = (s.applyUsage c.usage).tokens := by
    cases c.usage <;> rfl
  unfold applyChunk OpenAiStreamChunk.text OpenAiStreamChunk.content OpenAiStreamChunk.audio OpenAiStreamChunk.reasoning
    OpenAiStreamChunk.calls OpenAiStreamChunk.finish OpenAiStreamChunk.delta
  cases c.choices with
  | nil => simp [counts]
  | cons choice rest =>
    obtain ⟨texts, entries, reason, same⟩ :=
      applyChoice_fields (s := { s with modelName := c.model.getD s.modelName }.applyUsage c.usage) choice
    simp [texts,entries,reason,same,counts]

/-- What a list of chunks puts together. -/
theorem applyChunks_fields (s : StreamState) (chunks : List OpenAiStreamChunk) :
    (chunks.foldl applyChunk s).fullContent = s.fullContent ++ String.join (chunks.map OpenAiStreamChunk.text) ∧
    (chunks.foldl applyChunk s).entries = (chunks.flatMap OpenAiStreamChunk.calls).foldl processDelta s.entries ∧
    (chunks.foldl applyChunk s).finishReason =
      ((latest (chunks.map OpenAiStreamChunk.finish)).map (fun r => parseOpenaiFinishReason (some r))).getD s.finishReason ∧
    ((∀ c ∈ chunks, c.usage = none) → (chunks.foldl applyChunk s).tokens = s.tokens) := by
  induction chunks generalizing s with
  | nil => simp [latest]
  | cons c rest ih =>
    obtain ⟨texts, entries, reason, counts⟩ := ih (s.applyChunk c)
    obtain ⟨text, calls, finish, count⟩ := applyChunk_fields s c
    refine ⟨?_, ?_, ?_, ?_⟩
    · simp [texts,text,String.append_assoc]
    · simp [entries,calls]
    · simp [reason,finish,latest,Option.map_or,Option.getD_or]
    · intro none
      simp only [List.foldl_cons]
      rw [counts (fun d member => none d (List.mem_cons_of_mem _ member)),count,none c List.mem_cons_self]
      rfl

end StreamState

def emptyEntry : StreamToolCallEntry := ⟨"", "", ""⟩

theorem processDelta_length (entries : List StreamToolCallEntry) (d : OpenAiStreamToolCall) :
    (processDelta entries d).length = max entries.length (d.index + 1) := by
  simp [processDelta]
  omega

theorem processDelta_getD (entries : List StreamToolCallEntry) (d : OpenAiStreamToolCall) (i : Nat) :
    (processDelta entries d).getD i emptyEntry =
      if d.index = i then (entries.getD i emptyEntry).merge d else entries.getD i emptyEntry := by
  have padded (i : Nat) : (entries ++ List.replicate (d.index + 1 - entries.length) emptyEntry).getD i emptyEntry =
      entries.getD i emptyEntry := by
    simp only [List.getD_eq_getElem?_getD,List.getElem?_append]
    split
    · rfl
    · rename_i outside
      rw [List.getElem?_replicate,List.getElem?_eq_none (Nat.le_of_not_lt outside)]
      split <;> rfl
  have inside : d.index < (entries ++ List.replicate (d.index + 1 - entries.length) emptyEntry).length := by
    simp
    omega
  have here := padded i
  simp only [processDelta,List.getD_eq_getElem?_getD,List.getElem?_modify] at here ⊢
  change ((fun x => _) <$> (entries ++ List.replicate (d.index + 1 - entries.length) emptyEntry)[i]?).getD emptyEntry = _
  by_cases own : d.index = i
  · subst own
    rw [List.getElem?_eq_getElem inside] at here ⊢
    simp only [Option.getD_some] at here
    simp [here]
  · simp [own,here]

/-- The entry of an index is made of the deltas with it. -/
theorem processDeltas_getD (deltas : List OpenAiStreamToolCall) (entries : List StreamToolCallEntry) (i : Nat) :
    (deltas.foldl processDelta entries).getD i emptyEntry =
      (deltas.filter (fun d => d.index = i)).foldl StreamToolCallEntry.merge (entries.getD i emptyEntry) := by
  induction deltas generalizing entries with
  | nil => rfl
  | cons d rest ih =>
    rw [List.foldl_cons,ih,processDelta_getD]
    by_cases own : d.index = i
    · simp [own]
    · simp [own]

theorem merges_eq (deltas : List OpenAiStreamToolCall) (entry : StreamToolCallEntry) :
    deltas.foldl StreamToolCallEntry.merge entry =
      ⟨(latest (deltas.map OpenAiStreamToolCall.id)).getD entry.id, (latest (deltas.map OpenAiStreamToolCall.name)).getD entry.name,
        entry.argumentsBuf ++ String.join (deltas.map OpenAiStreamToolCall.arguments)⟩ := by
  induction deltas generalizing entry with
  | nil => simp [latest]
  | cons d rest ih =>
    rw [List.foldl_cons,ih]
    simp [latest,StreamToolCallEntry.merge,OpenAiStreamToolCall.name,OpenAiStreamToolCall.arguments,Option.getD_or,
      String.append_assoc]

theorem processDeltas_length (deltas : List OpenAiStreamToolCall) (entries : List StreamToolCallEntry) :
    (∀ n, entries.length ≤ n → (∀ d ∈ deltas, d.index < n) → (deltas.foldl processDelta entries).length ≤ n) ∧
    entries.length ≤ (deltas.foldl processDelta entries).length ∧
    ∀ d ∈ deltas, d.index < (deltas.foldl processDelta entries).length := by
  induction deltas generalizing entries with
  | nil => simp
  | cons d rest ih =>
    obtain ⟨small, grows, reached⟩ := ih (processDelta entries d)
    have length := processDelta_length entries d
    refine ⟨?_, ?_, ?_⟩
    · intro n fits bound
      have := bound d List.mem_cons_self
      exact small n (by omega) (fun e member => bound e (List.mem_cons_of_mem _ member))
    · simp only [List.foldl_cons]
      omega
    · intro e member
      simp only [List.foldl_cons]
      rcases List.mem_cons.mp member with rfl | later
      · omega
      · exact reached e later

/-- The entries are the calls. -/
theorem Assembles.entries {deltas : List OpenAiStreamToolCall} {calls : List OpenAiToolCall} (assembles : Assembles deltas calls) :
    deltas.foldl processDelta [] = calls.map (fun call => ⟨call.id, call.function.name, call.function.arguments⟩) := by
  obtain ⟨small, -, reached⟩ := processDeltas_length deltas []
  have length : (deltas.foldl processDelta []).length = calls.length := by
    apply Nat.le_antisymm (small calls.length (Nat.zero_le _) assembles.bound)
    by_contra short
    have inside : (deltas.foldl processDelta []).length < calls.length := by omega
    have some_ := assembles.ids _ _ (List.getElem?_eq_getElem inside)
    cases own : deltas.filter (fun d => d.index = (deltas.foldl processDelta []).length) with
    | nil => simp [own,latest] at some_
    | cons d rest =>
      have member : d ∈ deltas.filter (fun d => d.index = (deltas.foldl processDelta []).length) := by simp [own]
      have there := List.mem_filter.mp member
      have := reached d there.1
      have := of_decide_eq_true there.2
      omega
  apply List.ext_getElem (by simp [length])
  intro i inLeft inRight
  have bound : i < calls.length := by omega
  have found := List.getElem?_eq_getElem bound
  have entry := processDeltas_getD deltas [] i
  rw [merges_eq,List.getD_eq_getElem _ _ inLeft] at entry
  rw [entry,assembles.ids i _ found,assembles.names i _ found,assembles.arguments i _ found]
  simp [emptyEntry]

/-- A chunk line is taken once, though it may be decoded twice. -/
theorem ChunkLine.applyData {serde : Serde} {line : String} {c : OpenAiStreamChunk} (here : ChunkLine serde line c)
    (s : StreamState) (rest : List (Except String String)) :
    s.readLines serde (.ok line :: rest) = (s.applyChunk c).readLines serde rest := by
  obtain ⟨data, rfl, open_, chunk, whole, type⟩ := here.decodes
  have starts : startsWithText ("data: " ++ data) "data: " = true := by simp [startsWithText]
  have cut : String.ofList (("data: " ++ data).toList.drop 6) = data := by simp
  have repeated : ∀ full, serde.response data = some full → (s.applyChunk c).applyFull full = s.applyChunk c := by
    intro full decoded
    obtain ⟨none, none', usage⟩ := whole full decoded
    simp only [StreamState.applyFull,none,usage,StreamState.applyChunk,none']
    exact StreamState.applyUsage_applyUsage _ c.usage
  have plain : ∀ event, serde.value data = .ok event → (s.applyChunk c).applyEvent event = .ok (s.applyChunk c) := by
    intro event decoded
    simp only [StreamState.applyEvent,type event decoded,Option.bind_none]
  have applied : s.applyData serde data = .ok (s.applyChunk c) := by
    simp only [StreamState.applyData,chunk]
    cases full : serde.response data <;> cases event : serde.value data <;> simp [repeated,plain,full,event]
  rw [StreamState.readLines]
  simp only [starts,cut,applied,if_neg open_]
  simp

theorem Sends.readLines {serde : Serde} {chunks : List OpenAiStreamChunk} {lines : List (Except String String)}
    (sends : Sends serde chunks lines) (s : StreamState) :
    s.readLines serde lines = .ok (chunks.foldl StreamState.applyChunk s) := by
  induction sends generalizing s with
  | done rest =>
    have starts : startsWithText "data: [DONE]" "data: " = true := by decide
    simp [StreamState.readLines,starts]
  | skip line other later ih => simp [StreamState.readLines,other,ih]
  | chunk line c here later ih => rw [here.applyData,ih,List.foldl_cons]

/-- What the chunks of a message put together. -/
theorem Cuts.fields {m : AssistantMessage} {chunks : List OpenAiStreamChunk} (cuts : Cuts m chunks) (model : String) :
    let s := chunks.foldl StreamState.applyChunk (.start model)
    s.fullContent = m.reasoning ++ m.content ∧
    s.entries = m.toolCalls.map (fun call => ⟨call.id, call.function.name, call.function.arguments⟩) ∧
    s.finishReason = parseOpenaiFinishReason m.finishReason ∧
    s.tokens = (m.usage.promptTokensNormalized, m.usage.completionTokensNormalized, m.usage.cacheReadTokens,
      m.usage.cacheWriteTokens) := by
  obtain ⟨⟨reasoning, content, tools, last, rfl, reasons, reasonText, contents, contentText, calls, assembled, lastText, lastCalls,
    lastUsage⟩, finish⟩ := cuts
  obtain ⟨texts, entries, reason, -⟩ := StreamState.applyChunks_fields (.start model) (reasoning ++ content ++ tools ++ [last])
  have reasonTexts : reasoning.map OpenAiStreamChunk.text = reasoning.map (fun c => c.reasoning.getD "") := by
    apply List.map_congr_left
    intro c member
    obtain ⟨noContent, noAudio, -⟩ := reasons c member
    simp [OpenAiStreamChunk.text,noContent,noAudio]
  have contentTexts : content.map OpenAiStreamChunk.text = content.map (fun c => c.content.getD "") := by
    apply List.map_congr_left
    intro c member
    obtain ⟨noReasoning, noAudio, -⟩ := contents c member
    simp [OpenAiStreamChunk.text,noReasoning,noAudio]
  have toolTexts : String.join (tools.map OpenAiStreamChunk.text) = "" := by
    apply join_eq_empty_iff.mpr
    intro text member
    obtain ⟨c, inside, rfl⟩ := List.mem_map.mp member
    obtain ⟨noContent, noReasoning, noAudio, -⟩ := calls c inside
    simp [OpenAiStreamChunk.text,noContent,noReasoning,noAudio]
  have noCalls (chunks : List OpenAiStreamChunk) (without : ∀ c ∈ chunks, c.calls = []) :
      chunks.flatMap OpenAiStreamChunk.calls = [] := List.flatMap_eq_nil_iff.mpr without
  refine ⟨?_, ?_, ?_, ?_⟩
  · rw [texts]
    simp only [List.map_append,List.map_singleton,String.join_append,reasonTexts,contentTexts,toolTexts,reasonText,contentText,
      lastText]
    simp [StreamState.start]
  · rw [entries]
    simp only [List.flatMap_append,List.flatMap_singleton,noCalls reasoning (fun c member => (reasons c member).2.2.1),
      noCalls content (fun c member => (contents c member).2.2.1),lastCalls,List.nil_append,List.append_nil]
    exact assembled.entries
  · rw [reason,finish]
    cases m.finishReason <;> rfl
  · have before := (StreamState.applyChunks_fields (.start model) (reasoning ++ content ++ tools)).2.2.2 (by
      intro c member
      rcases List.mem_append.mp member with earlier | inTools
      · rcases List.mem_append.mp earlier with inReasoning | inContent
        · exact (reasons c inReasoning).2.2.2
        · exact (contents c inContent).2.2.2
      · exact (calls c inTools).2.2.2)
    rw [List.foldl_append,List.foldl_cons,List.foldl_nil,(StreamState.applyChunk_fields _ last).2.2.2,lastUsage]
    exact StreamState.applyUsage_tokens before m.usage

theorem intoToolCalls_eq (serde : Serde) {calls : List OpenAiToolCall} (ids : ∀ call ∈ calls, call.id ≠ "") :
    intoToolCalls serde (calls.map (fun call => ⟨call.id, call.function.name, call.function.arguments⟩)) =
      parseOpenaiToolCalls serde calls := by
  have all : (calls.map (fun call => (⟨call.id, call.function.name, call.function.arguments⟩ : StreamToolCallEntry))).filter
      (fun e => e.id ≠ "") = calls.map (fun call => ⟨call.id, call.function.name, call.function.arguments⟩) := by
    apply List.filter_eq_self.mpr
    intro e member
    obtain ⟨call, inside, rfl⟩ := List.mem_map.mp member
    exact decide_eq_true (ids call inside)
  rw [intoToolCalls,all]
  simp [parseOpenaiToolCalls]

/-- The text of the batch decoder. -/
def AssistantMessage.shownText (m : AssistantMessage) : String := if m.content = "" then m.reasoning else m.content

theorem firstText_cons (o : Option String) (rest : List (Option String)) :
    firstText (o :: rest) = if o.getD "" = "" then firstText rest else o.getD "" := by
  cases o <;> rfl

theorem Carries.outcome {serde : Serde} {m : AssistantMessage} {rawBody : String} (carries : Carries serde m rawBody)
    (model : String) : outcome (complete serde model (.body rawBody)) =
      if trim m.shownText = "" ∧ m.toolCalls = [] then .error StreamState.noContent
      else .ok (m.shownText, parseOpenaiToolCalls serde m.toolCalls, parseOpenaiFinishReason m.finishReason,
        m.usage.promptTokensNormalized, m.usage.completionTokensNormalized, m.usage.cacheReadTokens, m.usage.cacheWriteTokens) := by
  obtain ⟨json, parsed, choice, rest, plain, value, choices, decoded, first, usage, reason, content, reasoning, audio, details,
    calls⟩ := carries.decodes
  have text : extractTextFromOpenaiMessage choice.message = m.shownText := by
    simp only [extractTextFromOpenaiMessage,List.cons_append,firstText_cons,content,reasoning,audio,details,AssistantMessage.shownText]
    split
    · split
      · simp_all [firstText]
      · rfl
    · rfl
  have empty : (parseOpenaiToolCalls serde m.toolCalls).isEmpty = true ↔ m.toolCalls = [] := by simp [parseOpenaiToolCalls]
  simp only [complete,plain,value,choices,decoded,chatAnswer,first,usage,reason,text,calls,List.head?_cons,Option.bind_some,
    empty,Bool.false_eq_true,if_false]
  split
  · rfl
  · rfl

theorem stream_outcome {serde : Serde} {m : AssistantMessage} {chunks : List OpenAiStreamChunk}
    {lines : List (Except String String)} (ids : ∀ call ∈ m.toolCalls, call.id ≠ "") (cuts : Cuts m chunks)
    (sends : Sends serde chunks lines) (model : String) : outcome (completeStream serde model (.body lines)) =
      if trim (m.reasoning ++ m.content) = "" ∧ m.toolCalls = [] then .error StreamState.noContent
      else .ok (m.reasoning ++ m.content, parseOpenaiToolCalls serde m.toolCalls,
        if m.toolCalls ≠ [] ∧ parseOpenaiFinishReason m.finishReason = .stop then .toolUse
        else parseOpenaiFinishReason m.finishReason,
        m.usage.promptTokensNormalized, m.usage.completionTokensNormalized, m.usage.cacheReadTokens, m.usage.cacheWriteTokens) := by
  obtain ⟨content, entries, reason, tokens⟩ := cuts.fields model
  have empty : (parseOpenaiToolCalls serde m.toolCalls).isEmpty = true ↔ m.toolCalls = [] := by simp [parseOpenaiToolCalls]
  have filled : (parseOpenaiToolCalls serde m.toolCalls).isEmpty = false ↔ m.toolCalls ≠ [] := by simp [parseOpenaiToolCalls]
  simp only [StreamState.tokens,Prod.mk.injEq] at tokens
  obtain ⟨input, output, read, write⟩ := tokens
  simp only [completeStream,sends.readLines,StreamState.finish,content,entries,reason,intoToolCalls_eq serde ids,empty,filled,input,
    output,read,write]
  split
  · rfl
  · rfl

/-- One of the two texts is all there is exactly when the other is empty. -/
theorem joined_eq_shownText (m : AssistantMessage) : m.reasoning ++ m.content = m.shownText ↔ m.content = "" ∨ m.reasoning = "" := by
  unfold AssistantMessage.shownText
  split
  · rename_i empty
    simp [empty]
  · rename_i filled
    simp [filled]

theorem shownText_blank {m : AssistantMessage} (blank : trim (m.reasoning ++ m.content) = "") : trim m.shownText = "" := by
  rw [trim_eq_empty_iff] at blank ⊢
  intro c member
  apply blank c
  unfold AssistantMessage.shownText at member
  split at member <;> simp [member]

/-- Streaming and batch agree on a message exactly when it does not have both texts, nor tool calls
with a finish reason that does not say so; or when there is nothing to show. -/
theorem stream_agrees_iff (serde : Serde) (model rawBody : String) (m : AssistantMessage) (chunks : List OpenAiStreamChunk)
    (lines : List (Except String String)) (ids : ∀ call ∈ m.toolCalls, call.id ≠ "") (carries : Carries serde m rawBody)
    (cuts : Cuts m chunks) (sends : Sends serde chunks lines) :
    outcome (completeStream serde model (.body lines)) = outcome (complete serde model (.body rawBody)) ↔ Agrees m := by
  rw [stream_outcome ids cuts sends,carries.outcome]
  unfold Agrees
  rw [← joined_eq_shownText]
  by_cases none : m.toolCalls = []
  · by_cases blank : trim (m.reasoning ++ m.content) = ""
    · simp [none,blank,shownText_blank blank]
    · by_cases shown : trim m.shownText = ""
      · have differ : m.reasoning ++ m.content ≠ m.shownText := fun same => blank (same ▸ shown)
        simp [none,blank,shown,differ]
      · simp [none,blank,shown]
  · by_cases stop : parseOpenaiFinishReason m.finishReason = .stop
    · simp [none,stop]
    · simp [none,stop]

def deltaChunk (delta : OpenAiStreamDelta) : OpenAiStreamChunk := ⟨none, [⟨delta, none⟩], none⟩

def deltaJson (field : String) (value : Json) : Json := .obj [("choices", .arr [.obj [("delta", .obj [(field, value)])]])]

def sampleUsage : OpenAiUsage := ⟨7, 3, 0, 0, 0, 0, 0, none⟩

def usageJson : Json := .obj [("prompt_tokens", .nat 7), ("completion_tokens", .nat 3)]

/-- The lines of a tool call without reasoning, with what they decode to. -/
def toolCallLines : List (String × Json × OpenAiStreamChunk) := [
  ("\x7b\"choices\":[\x7b\"delta\":\x7b\"content\":\"Hi\"\x7d\x7d]\x7d", deltaJson "content" (.str "Hi"),
    deltaChunk ⟨some "Hi", none, none, none⟩),
  ("\x7b\"choices\":[\x7b\"delta\":\x7b\"tool_calls\":[\x7b\"index\":0,\"id\":\"c1\",\"function\":\x7b\"name\":\"get\",\"arguments\":\"[1\"\x7d\x7d]\x7d\x7d]\x7d",
    deltaJson "tool_calls" (.arr [.obj [("index", .nat 0), ("id", .str "c1"),
      ("function", .obj [("name", .str "get"), ("arguments", .str "[1")])]]),
    deltaChunk ⟨none, none, none, some [⟨0, some "c1", some ⟨some "get", some "[1"⟩⟩]⟩),
  ("\x7b\"choices\":[\x7b\"delta\":\x7b\"tool_calls\":[\x7b\"index\":0,\"function\":\x7b\"arguments\":\"]\"\x7d\x7d]\x7d\x7d]\x7d",
    deltaJson "tool_calls" (.arr [.obj [("index", .nat 0), ("function", .obj [("arguments", .str "]")])]]),
    deltaChunk ⟨none, none, none, some [⟨0, none, some ⟨none, some "]"⟩⟩]⟩),
  ("\x7b\"choices\":[\x7b\"delta\":\x7b\x7d,\"finish_reason\":\"tool_calls\"\x7d],\"usage\":\x7b\"prompt_tokens\":7,\"completion_tokens\":3\x7d\x7d",
    .obj [("choices", .arr [.obj [("delta", .obj []), ("finish_reason", .str "tool_calls")]]), ("usage", usageJson)],
    ⟨none, [⟨⟨none, none, none, none⟩, some "tool_calls"⟩], some sampleUsage⟩)]

def toolCallMessage : AssistantMessage := ⟨"Hi", "", [⟨"c1", ⟨"get", "[1]"⟩⟩], some "tool_calls", sampleUsage⟩

/-- The lines of a reasoned answer. -/
def reasonedLines : List (String × Json × OpenAiStreamChunk) := [
  ("\x7b\"choices\":[\x7b\"delta\":\x7b\"reasoning_content\":\"Hm\"\x7d\x7d]\x7d", deltaJson "reasoning_content" (.str "Hm"),
    deltaChunk ⟨none, some "Hm", none, none⟩),
  ("\x7b\"choices\":[\x7b\"delta\":\x7b\"content\":\"Hi\"\x7d\x7d]\x7d", deltaJson "content" (.str "Hi"),
    deltaChunk ⟨some "Hi", none, none, none⟩),
  ("\x7b\"choices\":[\x7b\"delta\":\x7b\x7d,\"finish_reason\":\"stop\"\x7d],\"usage\":\x7b\"prompt_tokens\":7,\"completion_tokens\":3\x7d\x7d",
    .obj [("choices", .arr [.obj [("delta", .obj []), ("finish_reason", .str "stop")]]), ("usage", usageJson)],
    ⟨none, [⟨⟨none, none, none, none⟩, some "stop"⟩], some sampleUsage⟩)]

def reasonedMessage : AssistantMessage := ⟨"Hi", "Hm", [], some "stop", sampleUsage⟩

/-- Decoders that know the lines, one body and one text of arguments. -/
def tableSerde (lines : List (String × Json × OpenAiStreamChunk)) (body : String) (json : Json) (parsed : OpenAiResponse) :
    Serde where
  value text :=
    match lines.lookup text with
    | some (json, _) => .ok json
    | none =>
      if text = body then .ok json else if text = "[1]" then .ok (.arr [.nat 1])
      else .error "expected value at line 1 column 1"
  chunk text := (lines.lookup text).map Prod.snd
  response _ := none
  responseOfValue value := if value = json then .ok parsed else .error "missing field choices"

def sentLines (lines : List (String × Json × OpenAiStreamChunk)) : List (Except String String) :=
  (lines.map (fun line => .ok ("data: " ++ line.1)) : List (Except String String)) ++
    ([.ok "data: [DONE]"] : List (Except String String))

theorem tableSerde_sends {lines : List (String × Json × OpenAiStreamChunk)} {body : String} {json : Json} {parsed : OpenAiResponse}
    (distinct : (lines.map Prod.fst).Nodup) (plain : ∀ line ∈ lines, line.1 ≠ "[DONE]" ∧ line.2.1.get "type" = none) :
    Sends (tableSerde lines body json parsed) (lines.map (fun line => line.2.2)) (sentLines lines) := by
  suffices part : ∀ some_ ⊆ lines, Sends (tableSerde lines body json parsed) (some_.map (fun line => line.2.2)) (sentLines some_) from
    part lines (List.Subset.refl _)
  intro some_ inside
  induction some_ with
  | nil => exact .done []
  | cons line rest ih =>
    obtain ⟨text, value, chunk⟩ := line
    have member := inside List.mem_cons_self
    have found : lines.lookup text = some (value, chunk) := (lookup_iff_mem distinct).mpr member
    refine .chunk ("data: " ++ text) chunk ⟨text, rfl, (plain _ member).1, ?_, nofun, ?_⟩
      (ih (fun other later => inside (List.mem_cons_of_mem _ later)))
    · simp [tableSerde,found]
    · intro event decoded
      simp only [tableSerde,found,Except.ok.injEq] at decoded
      rw [← decoded]
      exact (plain _ member).2

def toolCallBody : String :=
  "\x7b\"choices\":[\x7b\"message\":\x7b\"content\":\"Hi\",\"tool_calls\":[\x7b\"id\":\"c1\",\"function\":\x7b\"name\":\"get\",\"arguments\":\"[1]\"\x7d\x7d]\x7d,\"finish_reason\":\"tool_calls\"\x7d],\"usage\":\x7b\"prompt_tokens\":7,\"completion_tokens\":3\x7d\x7d"

def toolCallJson : Json :=
  .obj [("choices", .arr [.obj [("message", .obj [("content", .str "Hi"), ("tool_calls", .arr [.obj [("id", .str "c1"),
    ("function", .obj [("name", .str "get"), ("arguments", .str "[1]")])]])]), ("finish_reason", .str "tool_calls")]]),
    ("usage", usageJson)]

def toolCallParsed : OpenAiResponse :=
  ⟨[⟨⟨some "Hi", none, none, none, some [⟨"c1", ⟨"get", "[1]"⟩⟩]⟩, some "tool_calls"⟩], some sampleUsage, none⟩

def toolCallSerde : Serde := tableSerde toolCallLines toolCallBody toolCallJson toolCallParsed

theorem toolCall_cuts : Cuts toolCallMessage (toolCallLines.map (fun line => line.2.2)) where
  pieces := by
    refine ⟨[], _ :: [], _ :: _ :: [], _, rfl, nofun, rfl, ?_, by decide, ?_, ?_, rfl, rfl, rfl⟩
    · simp [deltaChunk,OpenAiStreamChunk.reasoning,OpenAiStreamChunk.audio,OpenAiStreamChunk.calls,OpenAiStreamChunk.delta]
    · simp [deltaChunk,OpenAiStreamChunk.reasoning,OpenAiStreamChunk.audio,OpenAiStreamChunk.content,OpenAiStreamChunk.delta]
    · have only (i : Nat) (call : OpenAiToolCall) (found : toolCallMessage.toolCalls[i]? = some call) :
          i = 0 ∧ call = ⟨"c1", ⟨"get", "[1]"⟩⟩ := by
        cases i with
        | zero => exact ⟨rfl, (Option.some.inj found).symm⟩
        | succ i => cases found
      constructor
      · intro d member
        simp [deltaChunk,OpenAiStreamChunk.calls,OpenAiStreamChunk.delta] at member
        rcases member with rfl | rfl <;> decide
      · intro i call found
        obtain ⟨rfl, rfl⟩ := only i call found
        rfl
      · intro i call found
        obtain ⟨rfl, rfl⟩ := only i call found
        rfl
      · intro i call found
        obtain ⟨rfl, rfl⟩ := only i call found
        decide
  finish := rfl

/-- A search in a literal goes through its characters. -/
theorem containsText_ofList (text needle : List Char) :
    containsText (String.ofList text) (String.ofList needle) = decide (needle <:+: text) := by
  rw [containsText,String.toList_ofList,String.toList_ofList]

set_option maxRecDepth 2000 in
theorem toolCall_agrees :
    outcome (completeStream toolCallSerde "m" (.body (sentLines toolCallLines))) =
      outcome (complete toolCallSerde "m" (.body toolCallBody)) := by
  have carries : Carries toolCallSerde toolCallMessage toolCallBody := by
    have named : containsText toolCallBody "\"choices\":null" = false :=
      (containsText_ofList _ _).trans (by decide)
    refine ⟨toolCallJson, toolCallParsed, _, [], named, by decide, by decide, ?_, rfl, rfl, rfl, rfl, rfl, rfl,
      rfl, rfl⟩
    simp [toolCallSerde,tableSerde]
  exact (stream_agrees_iff toolCallSerde "m" toolCallBody toolCallMessage _ _ (by decide) carries toolCall_cuts
    (tableSerde_sends (by decide) (by decide))).mpr (.inr ⟨.inr rfl, .inr (by decide)⟩)

def reasonedBody : String :=
  "\x7b\"choices\":[\x7b\"message\":\x7b\"content\":\"Hi\",\"reasoning_content\":\"Hm\"\x7d,\"finish_reason\":\"stop\"\x7d],\"usage\":\x7b\"prompt_tokens\":7,\"completion_tokens\":3\x7d\x7d"

def reasonedJson : Json :=
  .obj [("choices", .arr [.obj [("message", .obj [("content", .str "Hi"), ("reasoning_content", .str "Hm")]),
    ("finish_reason", .str "stop")]]), ("usage", usageJson)]

def reasonedParsed : OpenAiResponse :=
  ⟨[⟨⟨some "Hi", some "Hm", none, none, none⟩, some "stop"⟩], some sampleUsage, none⟩

def reasonedSerde : Serde := tableSerde reasonedLines reasonedBody reasonedJson reasonedParsed

set_option maxRecDepth 2000 in
/-- The stream shows the reasoning as part of the answer. -/
theorem reasoned_differs :
    Carries reasonedSerde reasonedMessage reasonedBody ∧ Cuts reasonedMessage (reasonedLines.map (fun line => line.2.2)) ∧
    Sends reasonedSerde (reasonedLines.map (fun line => line.2.2)) (sentLines reasonedLines) ∧
    outcome (completeStream reasonedSerde "m" (.body (sentLines reasonedLines))) = .ok ("HmHi", [], .stop, 7, 3, 0, 0) ∧
    outcome (complete reasonedSerde "m" (.body reasonedBody)) = .ok ("Hi", [], .stop, 7, 3, 0, 0) := by
  have carries : Carries reasonedSerde reasonedMessage reasonedBody := by
    have named : containsText reasonedBody "\"choices\":null" = false :=
      (containsText_ofList _ _).trans (by decide)
    refine ⟨reasonedJson, reasonedParsed, _, [], named, by decide, by decide, ?_, rfl, rfl, rfl, rfl, rfl, rfl,
      rfl, rfl⟩
    simp [reasonedSerde,tableSerde]
  have cuts : Cuts reasonedMessage (reasonedLines.map (fun line => line.2.2)) := by
    refine ⟨⟨_ :: [], _ :: [], [], _, rfl, ?_, by decide, ?_, by decide, nofun, ⟨nofun, nofun, nofun, nofun⟩, rfl, rfl,
      rfl⟩, rfl⟩
    · simp [deltaChunk,OpenAiStreamChunk.content,OpenAiStreamChunk.audio,OpenAiStreamChunk.calls,OpenAiStreamChunk.delta]
    · simp [deltaChunk,OpenAiStreamChunk.reasoning,OpenAiStreamChunk.audio,OpenAiStreamChunk.calls,OpenAiStreamChunk.delta]
  have sends : Sends reasonedSerde (reasonedLines.map (fun line => line.2.2)) (sentLines reasonedLines) :=
    tableSerde_sends (by decide) (by decide)
  refine ⟨carries, cuts, sends, ?_, ?_⟩
  · rw [stream_outcome (by decide) cuts sends]
    rfl
  · rw [carries.outcome]
    rfl

end Zaion.Provider.OpenAi
