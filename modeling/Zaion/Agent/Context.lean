import Zaion.Ledger.Query
import Zaion.Lib.Cut
import Zaion.Lib.Fit

/-! `ContextEngine`: layers of memory put together within a budget of tokens, four bytes to a token.
What the memory stores answer is an argument, and how floats are written. -/
namespace Zaion.Agent

open Lib Ledger

structure ContextChunk where
  layer : Nat
  label : String
  content : String
  tokenEstimate : Nat
  lineage : List String
  deriving DecidableEq, Repr

def tokensOf (text : String) : Nat := text.utf8ByteSize / 4

def ContextChunk.newWithLineage (layer : Nat) (label content : String) (lineage : List String) : ContextChunk :=
  ⟨layer, label, content, tokensOf content, lineage⟩

structure BuiltContext where
  chunks : List ContextChunk
  totalTokens : Nat
  budgetUsed : Nat
  budgetRemaining : Nat
  systemPrompt : String
  deriving DecidableEq, Repr

/-- What of a skill goes into the context; the confidence as its bits. -/
structure SkillEntry where
  confidence : UInt64
  ruleText : String
  deriving DecidableEq, Repr

structure SemanticMatch where
  distance : UInt32
  text : String
  deriving DecidableEq, Repr

structure Projection where
  projectionId : String
  sessionKey : String
  layer : UInt8
  eventCursor : String
  createdAt : String
  deriving DecidableEq, Repr

/-- What the memory stores answer; `none` is an error. -/
structure MemoryStores where
  /-- The chat skills, ten at most. -/
  skills : Option (List SkillEntry)
  /-- The matches nearest to an embedding, five at most. -/
  search : List UInt32 → Option (List SemanticMatch)
  count : Nat
  latest : Option (Option Projection)

/-- `format!("{:.2}", confidence)` and `format!("{:.3}", 1.0 - distance)`. -/
structure FloatText where
  confidence : UInt64 → String
  similarity : UInt32 → String

/-- Up to the seconds; `none` where the slice panics. -/
def seconds (createdAt : String) : Option String :=
  if 19 ≤ createdAt.utf8ByteSize then (firstBytes 19 createdAt.toList).map String.ofList else some createdAt

/-- The chunks so far, and what is left of the budget. -/
structure Assembly where
  chunks : List ContextChunk
  remaining : Nat

namespace Assembly

def spend (assembly : Assembly) (chunk : ContextChunk) : Assembly :=
  ⟨assembly.chunks ++ [chunk], assembly.remaining - chunk.tokenEstimate⟩

def spendIfFits (assembly : Assembly) (chunk : ContextChunk) : Assembly :=
  if chunk.tokenEstimate ≤ assembly.remaining then assembly.spend chunk else assembly

end Assembly

namespace ContextEngine

def identity (principalId : String) : String :=
  "identity: Zaion, a small-octopus local agentic process\nprincipal_id: " ++ principalId ++
  "\nboundaries: local-first, auditable, tool-aware, permission-bounded; say unknown when evidence is missing" ++
  "\nmemory_rule: cite signed events, user facts, or traceable projections" ++
  "\nactivity_continuity: off unless explicitly configured"

def principalChunk (principalId : String) : ContextChunk :=
  .newWithLineage 6 "principal" (identity principalId) ["identity:principal:" ++ principalId]

def withPrincipal (principalId : String) (tokenBudget : Nat) : Assembly :=
  Assembly.spend ⟨[], tokenBudget⟩ (principalChunk principalId)

def skillLine (text : FloatText) (skill : SkillEntry) : String :=
  "[" ++ text.confidence skill.confidence ++ "] " ++ skill.ruleText

def withSkills (text : FloatText) (stores : MemoryStores) (assembly : Assembly) : Assembly :=
  match stores.skills with
  | none | some [] => assembly
  | some skills => assembly.spendIfFits
    (.newWithLineage 2 "skill_memories" ("\n".intercalate (skills.map (skillLine text))) ["memory:skill-store"])

def semanticLine (text : FloatText) (found : SemanticMatch) : String :=
  "[sim=" ++ text.similarity found.distance ++ "] " ++ found.text

def semanticHint (count : Nat) : String :=
  "semantic_memory_available: " ++ toString count ++
  " entries (provide --embed to enable relevance-ranked retrieval)"

def withSemantic (text : FloatText) (stores : MemoryStores) (queryEmbedding : Option (List UInt32)) (assembly : Assembly) :
    Assembly :=
  match queryEmbedding with
  | some embedding =>
    match stores.search embedding with
    | none => assembly
    | some matches_ =>
      match fitting tokensOf (assembly.remaining / 3) 0 (matches_.map (semanticLine text)) with
      | [] => assembly
      | lines => assembly.spend (.newWithLineage 5 "semantic_memories" ("\n".intercalate lines) ["memory:semantic-store"])
  | none =>
    if 0 < stores.count then
      assembly.spendIfFits (.newWithLineage 5 "semantic_hint" (semanticHint stores.count) ["memory:semantic-store"])
    else assembly

def eventLine (ts eventType : String) : String := "[" ++ ts ++ "] " ++ eventType

/-- The lines of events and where they come from, up to the first that does not fit. -/
def eventLines (budget : Nat) : Nat → List LedgerEvent → Option (List (String × String))
  | _, [] => some []
  | used, e :: rest => do
    let ts ← seconds e.createdAt
    let line := eventLine ts e.eventType
    if budget < used + tokensOf line then some []
    else
      let later ← eventLines budget (used + tokensOf line) rest
      some ((line, "ledger:event:" ++ e.eventId) :: later)

/-- The events as the ledger lists them, twenty at most. -/
def withEvents {ε : Type} (listed : Except ε (List LedgerEvent)) (assembly : Assembly) : Option Assembly :=
  match listed with
  | .error _ => some assembly
  | .ok events => do
    let lines ← eventLines (assembly.remaining / 2) 0 (events.reverse.take 10)
    match lines with
    | [] => some assembly
    | lines => some (assembly.spend
      (.newWithLineage 4 "recent_events" ("\n".intercalate (lines.map Prod.fst)) (lines.map Prod.snd)))

def projectionText (snap : Projection) (ts : String) : String :=
  "last_snapshot: projection_id=" ++ snap.projectionId ++ " layer=" ++ toString snap.layer.toNat ++ " session=" ++
  snap.sessionKey ++ " event_cursor=" ++ snap.eventCursor ++ " updated_at=" ++ ts

def projectionLineage (snap : Projection) : List String :=
  ("memory:projection:" ++ snap.projectionId) ::
    if "evt-".toList <+: snap.eventCursor.toList then ["ledger:event:" ++ snap.eventCursor] else []

def withProjection (stores : MemoryStores) (assembly : Assembly) : Option Assembly :=
  match stores.latest with
  | none | some none => some assembly
  | some (some snap) => do
    let ts ← seconds snap.createdAt
    some (assembly.spendIfFits (.newWithLineage 3 "projection" (projectionText snap ts) (projectionLineage snap)))

/-- What the layers above the events come to. -/
def beforeEvents (text : FloatText) (principalId : String) (tokenBudget : Nat) (stores : MemoryStores)
    (queryEmbedding : Option (List UInt32)) : Assembly :=
  withSemantic text stores queryEmbedding (withSkills text stores (withPrincipal principalId tokenBudget))

def promptOf (chunk : ContextChunk) : String := "## " ++ chunk.label ++ "\n" ++ chunk.content

def finish (tokenBudget : Nat) (assembly : Assembly) : BuiltContext :=
  let chunks := assembly.chunks.mergeSort fun a b => decide (a.layer ≤ b.layer)
  ⟨chunks, (chunks.map ContextChunk.tokenEstimate).sum, tokenBudget - assembly.remaining, assembly.remaining,
    "\n\n".intercalate (chunks.map promptOf)⟩

/-- `none` where a slice panics; the query is not looked at. -/
def buildWithEmbedding {ε : Type} (text : FloatText) (principalId : String) (_query : String) (tokenBudget : Nat)
    (listed : Except ε (List LedgerEvent)) (stores : MemoryStores) (queryEmbedding : Option (List UInt32)) :
    Option BuiltContext := do
  let events ← withEvents listed (beforeEvents text principalId tokenBudget stores queryEmbedding)
  let all ← withProjection stores events
  some (finish tokenBudget all)

end ContextEngine

end Zaion.Agent
