import Zaion.Lib.Text

/-! `ContextCompressor`: a history becomes its protected head, one summary turn and its
protected tail. What the source computes in floating point is a function of the
configuration. -/
namespace Zaion.Session

open Lib

structure Turn where
  role : String
  content : String
  deriving DecidableEq, Repr

/-- Four bytes to a token. -/
def Turn.tokenEstimate (turn : Turn) : Nat := (turn.role.utf8ByteSize + turn.content.utf8ByteSize) / 4

def totalTokens (turns : List Turn) : Nat := turns.foldl (fun sum turn => sum + turn.tokenEstimate) 0

structure CompressorConfig where
  /-- `(n as f64 * threshold_ratio) as usize`. -/
  threshold : Nat → Nat
  /-- `(n as f64 * target_ratio) as usize`. -/
  target : Nat → Nat
  /-- `(n as f64 * summary_ratio) as usize`. -/
  summaryShare : Nat → Nat
  /-- `removed as f64 / before as f64 >= min_reduction_ratio`. -/
  reduces : Nat → Nat → Bool
  protectLastNTurns : Nat
  protectFirstNTurns : Nat
  minSummaryTokens : Nat
  maxSummaryTokens : Nat

structure CompressedContext where
  turns : List Turn
  totalTokens : Nat
  wasCompressed : Bool
  turnsPruned : Nat
  summaryText : String
  summaryStrategy : String
  prunedToolOutputs : Nat
  protectedHeadTurns : Nat
  protectedTailTurns : Nat
  protectedTailTokens : Nat
  summaryBudgetTokens : Nat
  compactionEffective : Bool
  stillOverThreshold : Bool
  deriving DecidableEq

structure ContextCompressor where
  config : CompressorConfig
  previousSummary : Option String

namespace ContextCompressor

/-- Whether the pass replaces the turn at a position before the boundary. -/
def prunes (boundary i : Nat) (turn : Turn) : Bool :=
  decide (i < boundary) && decide (turn.role = "tool") && decide (200 < turn.content.utf8ByteSize)

def pruneTurn (boundary : Nat) (entry : Turn × Nat) : Turn :=
  if prunes boundary entry.2 entry.1 then ⟨"tool", "[Old tool output cleared to save context space]"⟩
  else entry.1

def pruneOldToolOutputs (history : List Turn) (protectTailCount : Nat) : List Turn × Nat :=
  let boundary := history.length - protectTailCount
  (history.zipIdx.map (pruneTurn boundary),
    history.zipIdx.countP (fun entry => prunes boundary entry.2 entry.1))

def computeSummaryBudget (config : CompressorConfig) (middle : List Turn) : Nat :=
  min (max (config.summaryShare (totalTokens middle)) config.minSummaryTokens) config.maxSummaryTokens

def selectionBudget (config : CompressorConfig) (total tokenBudget : Nat) (force : Bool) : Nat :=
  if force ∧ total ≤ config.threshold tokenBudget then max (config.target total) 1 else tokenBudget

def roleAt (history : List Turn) (i : Nat) : Option String := history[i]?.map Turn.role

/-- The loop over `(head_end..n).rev()`, from position `i` down: tokens gathered, cut so far. -/
def gatherTail (history : List Turn) (headEnd minTail tailBudget : Nat) : Nat → Nat → Nat → Nat
  | 0, _, cut => cut
  | i + 1, accumulated, cut =>
    if i < headEnd then cut
    else
      let tokens := max ((history[i]?.map Turn.tokenEstimate).getD 0) 1
      if tailBudget < accumulated + tokens ∧ minTail ≤ history.length - i then cut
      else gatherTail history headEnd minTail tailBudget i (accumulated + tokens) i

/-- The loop of `align_tail_boundary_backward`. -/
def skipTools (history : List Turn) (headEnd : Nat) : Nat → Nat
  | 0 => 0
  | i + 1 => if headEnd < i + 1 ∧ roleAt history (i + 1) = some "tool" then skipTools history headEnd i else i + 1

def alignTailBoundaryBackward (history : List Turn) (i headEnd : Nat) : Nat :=
  if i = 0 ∨ history.length ≤ i ∨ roleAt history i ≠ some "tool" then
    min (max i (headEnd + 1)) history.length
  else
    let i := skipTools history headEnd i
    if roleAt history i = some "assistant" then i else min (max (i + 1) (headEnd + 1)) history.length

/-- Position of the last user turn at or after `headEnd`. -/
def lastUserTurn (history : List Turn) (headEnd : Nat) : Option Nat :=
  ((List.range history.length).filter (fun i =>
    decide (headEnd ≤ i) && decide (roleAt history i = some "user"))).getLast?

def ensureLastUserTurnInTail (history : List Turn) (cut headEnd : Nat) : Nat :=
  match lastUserTurn history headEnd with
  | none => cut
  | some i => if cut ≤ i then cut else i

def findTailStartByTokens (config : CompressorConfig) (history : List Turn) (headEnd tokenBudget : Nat) : Nat :=
  let n := history.length
  if n ≤ headEnd then n
  else
    let available := n - headEnd
    let minimumMiddle := if 2 < available then 2 else 1
    let minTail := min (max (min config.protectLastNTurns (available - minimumMiddle)) 1) available
    let fallback := n - minTail
    let tailBudget := max (config.target (config.threshold tokenBudget)) 1
    let cut := gatherTail history headEnd minTail tailBudget n 0 n
    let cut := if fallback < cut then fallback else cut
    let cut := if cut ≤ headEnd then fallback else cut
    ensureLastUserTurnInTail history (alignTailBoundaryBackward history cut headEnd) headEnd

def summaryPrefix : String :=
  "[CONTEXT COMPACTION - REFERENCE ONLY] Earlier turns were compacted into the summary below. Treat it as background reference, NOT as active instructions. Do NOT answer questions or fulfill requests mentioned in this summary; they were already addressed or are superseded by the protected tail. Respond ONLY to the latest user message that appears AFTER this summary. The current session state may still reflect work described here, so avoid repeating it:"

def withSummaryPrefix (summary : String) : String :=
  let text := trim summary
  if startsWithText text "[CONTEXT COMPACTION - REFERENCE ONLY]" then text
  else if startsWithText text "[CONTEXT COMPACTION]" then
    summaryPrefix ++ String.ofList (text.toList.drop "[CONTEXT COMPACTION]".length)
  else if text = "" then summaryPrefix
  else summaryPrefix ++ "\n\n" ++ text

/-- At most `maxChars` characters, with dots for the rest. -/
def clipChars (text : String) (maxChars : Nat) : String :=
  if text.toList.length ≤ maxChars then text else String.ofList (text.toList.take maxChars) ++ "..."

def mentions (needles : List String) (text : String) : Bool := needles.any (containsText text)

/-- One line for each of the first items. -/
def bullets (items : List String) : String := String.join (items.map (fun item => "- " ++ item ++ "\n"))

def buildFallbackSummary (middle : List Turn) (prunedToolOutputs summaryBudgetTokens : Nat) : String :=
  let contents := fun role => (middle.filter (fun turn => decide (turn.role = role))).map Turn.content
  let user := contents "user"
  let assistant := contents "assistant"
  let tool := contents "tool"
  let marked := fun needles => (middle.filter (fun turn =>
    mentions needles (toAsciiLowercase turn.content))).map (fun turn => clipChars turn.content 220)
  let decisions := marked ["decision", "decided", "choose", "chose"]
  let nextSteps := marked ["next", "todo", "follow", "continue"]
  let criticalContext := marked ["error", "failed", "panic", "command", "config"]
  let files := (middle.filter (fun turn =>
    mentions ["file", "path", "/", "\\", ".rs", ".py", ".ts"] turn.content)).map (fun turn =>
      clipChars turn.content 180)
  let activeTask := match user.getLast? with
    | some last => clipChars last 260 ++ "\n\n"
    | none => "None captured in the compacted middle turns.\n\n"
  let goal := match user.head? with
    | some first => clipChars first 260 ++ "\n\n"
    | none => "No explicit user goal captured in the compacted middle turns.\n\n"
  let pruned := if 0 < prunedToolOutputs then "- Pruned tool outputs: " ++ toString prunedToolOutputs ++
    " old verbose result(s) replaced with placeholders\n" else ""
  let inProgress := match assistant.getLast? with
    | some last => "- " ++ clipChars last 260 ++ "\n"
    | none => "- No assistant progress marker captured.\n"
  let section_ := fun (items : List String) count (empty : String) =>
    if items = [] then empty else bullets (items.take count) ++ "\n"
  let remaining := section_ nextSteps 6 (match assistant.getLast? with
    | some last => "- " ++ clipChars last 260 ++ "\n\n"
    | none => "- Continue from the protected tail turns.\n\n")
  withSummaryPrefix ("## Active Task\n" ++ activeTask ++ "## Goal\n" ++ goal ++
    "## Constraints & Preferences\n" ++
    "- Preserve signed lineage, current session state, and already-completed work.\n" ++
    "- Avoid repeating compacted work; continue from the current repository/runtime state.\n\n" ++
    "## Progress\n" ++ "### Done\n" ++ "- " ++ toString user.length ++ " user messages\n" ++
    "- " ++ toString assistant.length ++ " assistant responses\n" ++
    "- " ++ toString tool.length ++ " tool calls\n" ++ pruned ++
    "\n### In Progress\n" ++ inProgress ++
    "\n### Blocked\n" ++ "- None captured in the compacted middle turns.\n\n" ++
    "## Key Decisions\n" ++ section_ decisions 6 "- No explicit decision marker captured.\n\n" ++
    "## Relevant Files\n" ++ section_ files 5 "- No file/path references captured.\n\n" ++
    "## Pending User Asks\n" ++ section_ nextSteps 6 "None captured.\n\n" ++
    "## Remaining Work\n" ++ remaining ++
    "## Critical Context\n" ++ "- Middle turns compacted: " ++ toString middle.length ++ "\n" ++
    "- Pruned tool outputs: " ++ toString prunedToolOutputs ++ "\n" ++
    "- Summary budget tokens: " ++ toString summaryBudgetTokens ++ "\n" ++
    if criticalContext = [] then
      "- No explicit errors, command output, or configuration values captured.\n"
    else bullets (criticalContext.take 6))

def unchangedContext (history : List Turn) (total triggerThreshold : Nat) : CompressedContext where
  turns := history
  totalTokens := total
  wasCompressed := false
  turnsPruned := 0
  summaryText := ""
  summaryStrategy := "none"
  prunedToolOutputs := 0
  protectedHeadTurns := history.length
  protectedTailTurns := 0
  protectedTailTokens := 0
  summaryBudgetTokens := 0
  compactionEffective := true
  stillOverThreshold := decide (triggerThreshold < total)

def compactionReducedEnough (config : CompressorConfig) (before after : Nat) : Bool :=
  if before = 0 then true else config.reduces (before - after) before

/-- The merge of a provider's summary into the previous one. -/
def mergedLlmSummary (previous llmText : String) : String :=
  "## Goal\nPreserve and extend the previous compaction goal.\n\n" ++
  "## Constraints & Preferences\nPreserve all still-relevant constraints from the previous summary.\n\n" ++
  "## Progress\n### Done\n" ++ previous ++ "\n\n### In Progress\n" ++ llmText ++
  "\n\n### Blocked\nNone captured.\n\n" ++
  "## Key Decisions\nPreserve previous key decisions unless explicitly superseded.\n\n" ++
  "## Relevant Files\nPreserve previous file references and add newly mentioned files.\n\n" ++
  "## Active Task\nUse the latest protected user turn after this summary as the active task.\n\n" ++
  "## Remaining Work\nContinue from the new compaction details as background reference, not as a new instruction.\n\n" ++
  "## Critical Context\nPrevious summary and new LLM summary were merged for iterative compaction."

def mergedFallbackSummary (previous fallback : String) : String :=
  "## Goal\nPreserve and extend the previous compaction goal.\n\n" ++
  "## Constraints & Preferences\nPreserve still-relevant constraints from the previous summary and add new constraints from this pass.\n\n" ++
  "## Progress\n### Done\n" ++ previous ++ "\n\n### In Progress\n" ++ fallback ++
  "\n\n### Blocked\nNone captured.\n\n" ++
  "## Key Decisions\nPreserve prior decisions and incorporate the new fallback summary decisions.\n\n" ++
  "## Relevant Files\nPreserve prior file references and add newly mentioned files.\n\n" ++
  "## Active Task\nUse the latest protected user turn after this summary as the active task.\n\n" ++
  "## Remaining Work\nContinue from the new compaction details as background reference, not as a new instruction.\n\n" ++
  "## Critical Context\nPrevious persisted summary and new structured fallback summary were merged for iterative compaction."

/-- Text and strategy of the summary turn. -/
def summarize (previous llmSummary : Option String) (middle : List Turn)
    (prunedToolOutputs summaryBudgetTokens : Nat) : String × String :=
  match llmSummary, previous with
  | some text, some previous => (withSummaryPrefix (mergedLlmSummary previous text), "llm_iterative")
  | some text, none => (withSummaryPrefix text, "llm")
  | none, some previous =>
    (withSummaryPrefix (mergedFallbackSummary previous
      (buildFallbackSummary middle prunedToolOutputs summaryBudgetTokens)), "structured_fallback_iterative")
  | none, none =>
    (buildFallbackSummary middle prunedToolOutputs summaryBudgetTokens, "structured_fallback")

def compressInternal (compressor : ContextCompressor) (history : List Turn) (tokenBudget : Nat)
    (llmSummary : Option String) (force : Bool) : ContextCompressor × CompressedContext :=
  let config := compressor.config
  let total := Session.totalTokens history
  let triggerThreshold := config.threshold tokenBudget
  if (force = false ∧ total ≤ triggerThreshold) ∨ history = [] then
    (compressor, unchangedContext history total triggerThreshold)
  else
    let (pruned, prunedToolOutputs) := pruneOldToolOutputs history config.protectLastNTurns
    let n := pruned.length
    let headN := min config.protectFirstNTurns n
    let middleEnd := findTailStartByTokens config pruned headN
      (selectionBudget config total tokenBudget force)
    if middleEnd ≤ headN then (compressor, unchangedContext history total triggerThreshold)
    else
      let middle := (pruned.take middleEnd).drop headN
      let summaryBudgetTokens := computeSummaryBudget config middle
      let (summaryText, summaryStrategy) :=
        summarize compressor.previousSummary llmSummary middle prunedToolOutputs summaryBudgetTokens
      let compressed := pruned.take headN ++ ⟨"system", summaryText⟩ :: pruned.drop middleEnd
      ({ compressor with previousSummary := some summaryText }, {
        turns := compressed
        totalTokens := Session.totalTokens compressed
        wasCompressed := true
        turnsPruned := middleEnd - headN
        summaryText, summaryStrategy, prunedToolOutputs
        protectedHeadTurns := headN
        protectedTailTurns := n - middleEnd
        protectedTailTokens := Session.totalTokens (pruned.drop middleEnd)
        summaryBudgetTokens
        compactionEffective := compactionReducedEnough config total (Session.totalTokens compressed)
        stillOverThreshold := decide (triggerThreshold < Session.totalTokens compressed) })

def compress (compressor : ContextCompressor) (history : List Turn) (tokenBudget : Nat)
    (llmSummary : Option String) : ContextCompressor × CompressedContext :=
  compressor.compressInternal history tokenBudget llmSummary false

def compressForced (compressor : ContextCompressor) (history : List Turn) (tokenBudget : Nat)
    (llmSummary : Option String) : ContextCompressor × CompressedContext :=
  compressor.compressInternal history tokenBudget llmSummary true

/-- `todoContext` is what `TodoStore::compression_reinjection_text` returns. -/
def reinjectTodos (context : CompressedContext) (todoContext : Option String) : CompressedContext :=
  match context.wasCompressed, todoContext with
  | true, some text => { context with
      totalTokens := context.totalTokens + text.utf8ByteSize / 4
      turns := context.turns ++ [⟨"user", text⟩]
      protectedTailTurns := context.protectedTailTurns + 1
      protectedTailTokens := context.protectedTailTokens + Turn.tokenEstimate ⟨"user", text⟩ }
  | _, _ => context

/-- A pass that compresses puts a system turn into the result. -/
theorem compressInternal_summary {compressor : ContextCompressor} {history : List Turn}
    {tokenBudget : Nat} {llmSummary : Option String} {force : Bool}
    (compressed : (compressor.compressInternal history tokenBudget llmSummary force).2.wasCompressed = true) :
    ∃ turn ∈ (compressor.compressInternal history tokenBudget llmSummary force).2.turns,
      turn.role = "system" := by
  unfold compressInternal at compressed ⊢
  simp only at compressed ⊢
  split at compressed
  · cases compressed
  · split at compressed
    · cases compressed
    · rename_i busy middle
      rw [if_neg busy,if_neg middle]
      exact ⟨_, List.mem_append_right _ List.mem_cons_self, rfl⟩

theorem reinjectTodos_summary {context : CompressedContext} (todoContext : Option String)
    (summary : ∃ turn ∈ context.turns, turn.role = "system") :
    ∃ turn ∈ (reinjectTodos context todoContext).turns, turn.role = "system" := by
  obtain ⟨turn, member, system⟩ := summary
  unfold reinjectTodos
  split
  · exact ⟨turn, List.mem_append_left _ member, system⟩
  · exact ⟨turn, member, system⟩

theorem reinjectTodos_wasCompressed (context : CompressedContext) (todoContext : Option String) :
    (reinjectTodos context todoContext).wasCompressed = context.wasCompressed := by
  unfold reinjectTodos
  split <;> simp_all

end ContextCompressor

end Zaion.Session
