import Zaion.Host
import Zaion.Turn.Execution

/-! Turn proofs and answer evidence graphs with the JSON `derive(Serialize, Deserialize)` gives
them: each carries the digest of its own text without that digest. -/
namespace Zaion.Turn

open Lib

/-- `stable_hash_json`. -/
def stableHashJson (host : Host) (v : Json) : String := host.sha256Hex (Host.utf8 (host.toText v))

/-- `n as f64`, to the nearest double, ties to even. -/
def doubleOfNat (n : Nat) : UInt64 :=
  if n = 0 then 0
  else if n.log2 ≤ 52 then
    UInt64.ofNat ((n.log2 + 1023) * 4503599627370496 + (n <<< (52 - n.log2) - 4503599627370496))
  else
    let shift := n.log2 - 52
    let kept := n >>> shift
    let lost := n - kept <<< shift
    let half := 1 <<< (shift - 1)
    let rounded := if half < lost ∨ (lost = half ∧ kept % 2 = 1) then kept + 1 else kept
    UInt64.ofNat ((n.log2 + 1023) * 4503599627370496 + (rounded - 4503599627370496))

def doubleOfNumber : JsonNumber → UInt64
  | .posInt n => doubleOfNat n
  | .negInt i => doubleOfNat i.natAbs ||| 9223372036854775808
  | .float bits => bits

def readDouble : Json → Option UInt64
  | .num n => some (doubleOfNumber n)
  | _ => none

/-- A number below `limit`: `u8`, `u32`, `u64` and `usize`. -/
def readBelow (limit : Nat) (v : Json) : Option Nat := v.asU64.bind fun n => if n < limit then some n else none

def u32Limit : Nat := 4294967296
def u64Limit : Nat := 18446744073709551616

def double (bits : UInt64) : Json := .num (.float bits)

/-- A missing field takes its default. -/
def readDefault (default : α) (read : Json → Option α) : Option Json → Option α
  | none => some default
  | some v => read v

def readList (read : Json → Option α) (v : Json) : Option (List α) := v.asArray.bind fun items => items.mapM read

structure TurnContextLayer where
  layer : Nat
  label : String
  tokenEstimate : Nat

structure TurnCompressionEvidence where
  schema : String
  compressionRequested : Bool
  wasCompressed : Bool
  originalTurns : Nat
  compressedTurns : Nat
  turnsPruned : Nat
  originalTokens : Nat
  compressedTokens : Nat
  tokenBudget : Nat
  triggerThreshold : Nat
  summaryHash : String
  summaryStrategy : String
  prunedToolOutputs : Nat
  protectedHeadTurns : Nat
  protectedTailTurns : Nat
  protectedTailTokens : Nat
  summaryBudgetTokens : Nat
  evidenceHash : String

structure TurnCanonicalUsageEvidence where
  inputTokens : Nat
  outputTokens : Nat
  cacheReadTokens : Nat
  cacheWriteTokens : Nat
  reasoningTokens : Nat
  requestCount : Nat

structure TurnCostEvidence where
  schema : String
  provider : String
  model : String
  billingProvider : String
  billingMode : String
  usage : TurnCanonicalUsageEvidence
  costStatus : String
  costSource : String
  estimatedCostUsd : Option UInt64
  actualCostUsd : Option UInt64
  sessionEstimatedCostUsd : UInt64
  sessionActualCostUsd : Option UInt64
  pricingVersion : Option String
  rollupEventId : Option String
  notes : List String
  evidenceHash : String

structure TurnRuntimeMemoryEvidence where
  schema : String
  memoryEnabled : Bool
  memoryContextBytes : Nat
  memoryContextHash : String
  fencedContext : Bool
  evidenceHash : String

structure TurnCapabilityManifest where
  provider : String
  model : String
  maxTokens : Option Nat
  temperature : Option UInt64
  memoryEnabled : Bool
  mcpEnabled : Bool
  cacheEnabled : Bool
  smartRouteEnabled : Bool
  compressionRequested : Bool
  toolsRequested : List String
  boundaries : List String

structure TurnProof where
  schemaVersion : Nat
  proofId : String
  principalId : String
  workspaceId : String
  projectId : String
  channelId : String
  threadId : String
  namespaceKey : String
  userEventId : String
  outputEventId : String
  omniRouteEventId : Option String
  omniRouteAuthorityHash : Option String
  namespaceTransitionEventId : Option String
  eventLineage : List String
  identityContractHash : String
  capabilityManifestHash : String
  contextPackId : Option String
  contextDigest : String
  contextLayers : List TurnContextLayer
  memoryAtomIds : List String
  compressionEvidence : Option TurnCompressionEvidence
  compressionEvidenceHash : Option String
  costEvidence : Option TurnCostEvidence
  costEvidenceHash : Option String
  runtimeMemoryEvidence : Option TurnRuntimeMemoryEvidence
  runtimeMemoryEvidenceHash : Option String
  evidenceGraphHash : Option String
  capabilityManifest : TurnCapabilityManifest
  tokensIn : Nat
  tokensOut : Nat
  toolCallCount : Nat
  toolReceiptIds : List String
  toolReceiptCount : Nat
  proofHash : String

def TurnContextLayer.toJson (l : TurnContextLayer) : Json := .obj [
  ("layer", .nat l.layer), ("label", .str l.label), ("token_estimate", .nat l.tokenEstimate)]

def TurnCompressionEvidence.toJson (e : TurnCompressionEvidence) : Json := .obj [
  ("schema", .str e.schema),
  ("compression_requested", .bool e.compressionRequested),
  ("was_compressed", .bool e.wasCompressed),
  ("original_turns", .nat e.originalTurns),
  ("compressed_turns", .nat e.compressedTurns),
  ("turns_pruned", .nat e.turnsPruned),
  ("original_tokens", .nat e.originalTokens),
  ("compressed_tokens", .nat e.compressedTokens),
  ("token_budget", .nat e.tokenBudget),
  ("trigger_threshold", .nat e.triggerThreshold),
  ("summary_hash", .str e.summaryHash),
  ("summary_strategy", .str e.summaryStrategy),
  ("pruned_tool_outputs", .nat e.prunedToolOutputs),
  ("protected_head_turns", .nat e.protectedHeadTurns),
  ("protected_tail_turns", .nat e.protectedTailTurns),
  ("protected_tail_tokens", .nat e.protectedTailTokens),
  ("summary_budget_tokens", .nat e.summaryBudgetTokens),
  ("evidence_hash", .str e.evidenceHash)]

def TurnCanonicalUsageEvidence.toJson (u : TurnCanonicalUsageEvidence) : Json := .obj [
  ("input_tokens", .nat u.inputTokens),
  ("output_tokens", .nat u.outputTokens),
  ("cache_read_tokens", .nat u.cacheReadTokens),
  ("cache_write_tokens", .nat u.cacheWriteTokens),
  ("reasoning_tokens", .nat u.reasoningTokens),
  ("request_count", .nat u.requestCount)]

def TurnCostEvidence.toJson (e : TurnCostEvidence) : Json := .obj [
  ("schema", .str e.schema),
  ("provider", .str e.provider),
  ("model", .str e.model),
  ("billing_provider", .str e.billingProvider),
  ("billing_mode", .str e.billingMode),
  ("usage", e.usage.toJson),
  ("cost_status", .str e.costStatus),
  ("cost_source", .str e.costSource),
  ("estimated_cost_usd", .ofOption double e.estimatedCostUsd),
  ("actual_cost_usd", .ofOption double e.actualCostUsd),
  ("session_estimated_cost_usd", double e.sessionEstimatedCostUsd),
  ("session_actual_cost_usd", .ofOption double e.sessionActualCostUsd),
  ("pricing_version", .ofOption .str e.pricingVersion),
  ("rollup_event_id", .ofOption .str e.rollupEventId),
  ("notes", texts e.notes),
  ("evidence_hash", .str e.evidenceHash)]

def TurnRuntimeMemoryEvidence.toJson (e : TurnRuntimeMemoryEvidence) : Json := .obj [
  ("schema", .str e.schema),
  ("memory_enabled", .bool e.memoryEnabled),
  ("memory_context_bytes", .nat e.memoryContextBytes),
  ("memory_context_hash", .str e.memoryContextHash),
  ("fenced_context", .bool e.fencedContext),
  ("evidence_hash", .str e.evidenceHash)]

def TurnCapabilityManifest.toJson (m : TurnCapabilityManifest) : Json := .obj [
  ("provider", .str m.provider),
  ("model", .str m.model),
  ("max_tokens", .ofOption .nat m.maxTokens),
  ("temperature", .ofOption double m.temperature),
  ("memory_enabled", .bool m.memoryEnabled),
  ("mcp_enabled", .bool m.mcpEnabled),
  ("cache_enabled", .bool m.cacheEnabled),
  ("smart_route_enabled", .bool m.smartRouteEnabled),
  ("compression_requested", .bool m.compressionRequested),
  ("tools_requested", texts m.toolsRequested),
  ("boundaries", texts m.boundaries)]

/-- An absent transition or graph hash is not written at all. -/
def TurnProof.toJson (p : TurnProof) : Json := .obj ([
  ("schema_version", .nat p.schemaVersion),
  ("proof_id", .str p.proofId),
  ("principal_id", .str p.principalId),
  ("workspace_id", .str p.workspaceId),
  ("project_id", .str p.projectId),
  ("channel_id", .str p.channelId),
  ("thread_id", .str p.threadId),
  ("namespace_key", .str p.namespaceKey),
  ("user_event_id", .str p.userEventId),
  ("output_event_id", .str p.outputEventId),
  ("omni_route_event_id", .ofOption .str p.omniRouteEventId),
  ("omni_route_authority_hash", .ofOption .str p.omniRouteAuthorityHash)] ++
  (p.namespaceTransitionEventId.toList.map fun id => ("namespace_transition_event_id", .str id)) ++ [
  ("event_lineage", texts p.eventLineage),
  ("identity_contract_hash", .str p.identityContractHash),
  ("capability_manifest_hash", .str p.capabilityManifestHash),
  ("context_pack_id", .ofOption .str p.contextPackId),
  ("context_digest", .str p.contextDigest),
  ("context_layers", .arr (p.contextLayers.map TurnContextLayer.toJson)),
  ("memory_atom_ids", texts p.memoryAtomIds),
  ("compression_evidence", .ofOption TurnCompressionEvidence.toJson p.compressionEvidence),
  ("compression_evidence_hash", .ofOption .str p.compressionEvidenceHash),
  ("cost_evidence", .ofOption TurnCostEvidence.toJson p.costEvidence),
  ("cost_evidence_hash", .ofOption .str p.costEvidenceHash),
  ("runtime_memory_evidence", .ofOption TurnRuntimeMemoryEvidence.toJson p.runtimeMemoryEvidence),
  ("runtime_memory_evidence_hash", .ofOption .str p.runtimeMemoryEvidenceHash)] ++
  (p.evidenceGraphHash.toList.map fun hash => ("evidence_graph_hash", .str hash)) ++ [
  ("capability_manifest", p.capabilityManifest.toJson),
  ("tokens_in", .nat p.tokensIn),
  ("tokens_out", .nat p.tokensOut),
  ("tool_call_count", .nat p.toolCallCount),
  ("tool_receipt_ids", texts p.toolReceiptIds),
  ("tool_receipt_count", .nat p.toolReceiptCount),
  ("proof_hash", .str p.proofHash)])

def readTextField (fields : List (String × Json)) (name : String) : Option String := readText (Json.lookup name fields)
def readNatField (fields : List (String × Json)) (limit : Nat) (name : String) : Option Nat :=
  (Json.lookup name fields).bind (readBelow limit)
def readBoolField (fields : List (String × Json)) (name : String) : Option Bool := readBool (Json.lookup name fields)
def readTextsField (fields : List (String × Json)) (name : String) : Option (List String) :=
  readTexts (Json.lookup name fields)
def readOptionField (fields : List (String × Json)) (read : Json → Option α) (name : String) : Option (Option α) :=
  readOption read (Json.lookup name fields)

def TurnContextLayer.ofJson? (v : Json) : Option TurnContextLayer := do
  let fields ← fieldsOf ["layer", "label", "token_estimate"] v
  some {
    layer := ← readNatField fields 256 "layer"
    label := ← readTextField fields "label"
    tokenEstimate := ← readNatField fields u64Limit "token_estimate" }

def TurnCompressionEvidence.ofJson? (v : Json) : Option TurnCompressionEvidence := do
  let fields ← fieldsOf ["schema", "compression_requested", "was_compressed", "original_turns", "compressed_turns",
    "turns_pruned", "original_tokens", "compressed_tokens", "token_budget", "trigger_threshold", "summary_hash",
    "summary_strategy", "pruned_tool_outputs", "protected_head_turns", "protected_tail_turns",
    "protected_tail_tokens", "summary_budget_tokens", "evidence_hash"] v
  let defaulted := fun name => readDefault 0 (readBelow u64Limit) (Json.lookup name fields)
  some {
    schema := ← readTextField fields "schema"
    compressionRequested := ← readBoolField fields "compression_requested"
    wasCompressed := ← readBoolField fields "was_compressed"
    originalTurns := ← readNatField fields u64Limit "original_turns"
    compressedTurns := ← readNatField fields u64Limit "compressed_turns"
    turnsPruned := ← readNatField fields u64Limit "turns_pruned"
    originalTokens := ← readNatField fields u64Limit "original_tokens"
    compressedTokens := ← readNatField fields u64Limit "compressed_tokens"
    tokenBudget := ← readNatField fields u64Limit "token_budget"
    triggerThreshold := ← readNatField fields u64Limit "trigger_threshold"
    summaryHash := ← readTextField fields "summary_hash"
    summaryStrategy := ← readDefault "" Json.asStr (Json.lookup "summary_strategy" fields)
    prunedToolOutputs := ← defaulted "pruned_tool_outputs"
    protectedHeadTurns := ← defaulted "protected_head_turns"
    protectedTailTurns := ← defaulted "protected_tail_turns"
    protectedTailTokens := ← defaulted "protected_tail_tokens"
    summaryBudgetTokens := ← defaulted "summary_budget_tokens"
    evidenceHash := ← readTextField fields "evidence_hash" }

def TurnCanonicalUsageEvidence.ofJson? (v : Json) : Option TurnCanonicalUsageEvidence := do
  let fields ← fieldsOf ["input_tokens", "output_tokens", "cache_read_tokens", "cache_write_tokens",
    "reasoning_tokens", "request_count"] v
  some {
    inputTokens := ← readNatField fields u64Limit "input_tokens"
    outputTokens := ← readNatField fields u64Limit "output_tokens"
    cacheReadTokens := ← readNatField fields u64Limit "cache_read_tokens"
    cacheWriteTokens := ← readNatField fields u64Limit "cache_write_tokens"
    reasoningTokens := ← readNatField fields u64Limit "reasoning_tokens"
    requestCount := ← readNatField fields u64Limit "request_count" }

def TurnCostEvidence.ofJson? (v : Json) : Option TurnCostEvidence := do
  let fields ← fieldsOf ["schema", "provider", "model", "billing_provider", "billing_mode", "usage", "cost_status",
    "cost_source", "estimated_cost_usd", "actual_cost_usd", "session_estimated_cost_usd",
    "session_actual_cost_usd", "pricing_version", "rollup_event_id", "notes", "evidence_hash"] v
  some {
    schema := ← readTextField fields "schema"
    provider := ← readTextField fields "provider"
    model := ← readTextField fields "model"
    billingProvider := ← readTextField fields "billing_provider"
    billingMode := ← readTextField fields "billing_mode"
    usage := ← (Json.lookup "usage" fields).bind TurnCanonicalUsageEvidence.ofJson?
    costStatus := ← readTextField fields "cost_status"
    costSource := ← readTextField fields "cost_source"
    estimatedCostUsd := ← readOptionField fields readDouble "estimated_cost_usd"
    actualCostUsd := ← readOptionField fields readDouble "actual_cost_usd"
    sessionEstimatedCostUsd := ← (Json.lookup "session_estimated_cost_usd" fields).bind readDouble
    sessionActualCostUsd := ← readOptionField fields readDouble "session_actual_cost_usd"
    pricingVersion := ← readOptionField fields Json.asStr "pricing_version"
    rollupEventId := ← readOptionField fields Json.asStr "rollup_event_id"
    notes := ← readDefault [] (readList Json.asStr) (Json.lookup "notes" fields)
    evidenceHash := ← readTextField fields "evidence_hash" }

def TurnRuntimeMemoryEvidence.ofJson? (v : Json) : Option TurnRuntimeMemoryEvidence := do
  let fields ← fieldsOf ["schema", "memory_enabled", "memory_context_bytes", "memory_context_hash", "fenced_context",
    "evidence_hash"] v
  some {
    schema := ← readTextField fields "schema"
    memoryEnabled := ← readBoolField fields "memory_enabled"
    memoryContextBytes := ← readNatField fields u64Limit "memory_context_bytes"
    memoryContextHash := ← readTextField fields "memory_context_hash"
    fencedContext := ← readBoolField fields "fenced_context"
    evidenceHash := ← readTextField fields "evidence_hash" }

def TurnCapabilityManifest.ofJson? (v : Json) : Option TurnCapabilityManifest := do
  let fields ← fieldsOf ["provider", "model", "max_tokens", "temperature", "memory_enabled", "mcp_enabled",
    "cache_enabled", "smart_route_enabled", "compression_requested", "tools_requested", "boundaries"] v
  some {
    provider := ← readTextField fields "provider"
    model := ← readTextField fields "model"
    maxTokens := ← readOptionField fields (readBelow u32Limit) "max_tokens"
    temperature := ← readOptionField fields readDouble "temperature"
    memoryEnabled := ← readBoolField fields "memory_enabled"
    mcpEnabled := ← readBoolField fields "mcp_enabled"
    cacheEnabled := ← readBoolField fields "cache_enabled"
    smartRouteEnabled := ← readBoolField fields "smart_route_enabled"
    compressionRequested := ← readBoolField fields "compression_requested"
    toolsRequested := ← readTextsField fields "tools_requested"
    boundaries := ← readTextsField fields "boundaries" }

def TurnProof.fieldNames : List String :=
  ["schema_version", "proof_id", "principal_id", "workspace_id", "project_id", "channel_id", "thread_id",
    "namespace_key", "user_event_id", "output_event_id", "omni_route_event_id", "omni_route_authority_hash",
    "namespace_transition_event_id", "event_lineage", "identity_contract_hash", "capability_manifest_hash",
    "context_pack_id", "context_digest", "context_layers", "memory_atom_ids", "compression_evidence",
    "compression_evidence_hash", "cost_evidence", "cost_evidence_hash", "runtime_memory_evidence",
    "runtime_memory_evidence_hash", "evidence_graph_hash", "capability_manifest", "tokens_in", "tokens_out",
    "tool_call_count", "tool_receipt_ids", "tool_receipt_count", "proof_hash"]

def TurnProof.ofJson? (v : Json) : Option TurnProof := do
  let fields ← fieldsOf TurnProof.fieldNames v
  some {
    schemaVersion := ← readNatField fields 256 "schema_version"
    proofId := ← readTextField fields "proof_id"
    principalId := ← readTextField fields "principal_id"
    workspaceId := ← readTextField fields "workspace_id"
    projectId := ← readTextField fields "project_id"
    channelId := ← readTextField fields "channel_id"
    threadId := ← readTextField fields "thread_id"
    namespaceKey := ← readTextField fields "namespace_key"
    userEventId := ← readTextField fields "user_event_id"
    outputEventId := ← readTextField fields "output_event_id"
    omniRouteEventId := ← readOptionField fields Json.asStr "omni_route_event_id"
    omniRouteAuthorityHash := ← readOptionField fields Json.asStr "omni_route_authority_hash"
    namespaceTransitionEventId := ← readOptionField fields Json.asStr "namespace_transition_event_id"
    eventLineage := ← readTextsField fields "event_lineage"
    identityContractHash := ← readTextField fields "identity_contract_hash"
    capabilityManifestHash := ← readTextField fields "capability_manifest_hash"
    contextPackId := ← readOptionField fields Json.asStr "context_pack_id"
    contextDigest := ← readTextField fields "context_digest"
    contextLayers := ← (Json.lookup "context_layers" fields).bind (readList TurnContextLayer.ofJson?)
    memoryAtomIds := ← readTextsField fields "memory_atom_ids"
    compressionEvidence := ← readOptionField fields TurnCompressionEvidence.ofJson? "compression_evidence"
    compressionEvidenceHash := ← readOptionField fields Json.asStr "compression_evidence_hash"
    costEvidence := ← readOptionField fields TurnCostEvidence.ofJson? "cost_evidence"
    costEvidenceHash := ← readOptionField fields Json.asStr "cost_evidence_hash"
    runtimeMemoryEvidence := ← readOptionField fields TurnRuntimeMemoryEvidence.ofJson? "runtime_memory_evidence"
    runtimeMemoryEvidenceHash := ← readOptionField fields Json.asStr "runtime_memory_evidence_hash"
    evidenceGraphHash := ← readOptionField fields Json.asStr "evidence_graph_hash"
    capabilityManifest := ← (Json.lookup "capability_manifest" fields).bind TurnCapabilityManifest.ofJson?
    tokensIn := ← readNatField fields u32Limit "tokens_in"
    tokensOut := ← readNatField fields u32Limit "tokens_out"
    toolCallCount := ← readNatField fields u64Limit "tool_call_count"
    toolReceiptIds := ← readDefault [] (readList Json.asStr) (Json.lookup "tool_receipt_ids" fields)
    toolReceiptCount := ← readDefault 0 (readBelow u64Limit) (Json.lookup "tool_receipt_count" fields)
    proofHash := ← readTextField fields "proof_hash" }

/-- `verify_turn_proof_hash`. -/
def verifyTurnProofHash (host : Host) (proof : TurnProof) : Bool :=
  proof.proofHash ≠ "" ∧ stableHashJson host { proof with proofHash := "" }.toJson = proof.proofHash

/-! Evidence graphs -/

inductive EvidenceNodeKind where
  | providerTrace
  | contextPack
  | memoryAtom
  | toolReceipt
  | ledgerEvent
  | answerTraceSpan
  deriving DecidableEq

def EvidenceNodeKind.name : EvidenceNodeKind → String
  | providerTrace => "provider_trace"
  | contextPack => "context_pack"
  | memoryAtom => "memory_atom"
  | toolReceipt => "tool_receipt"
  | ledgerEvent => "ledger_event"
  | answerTraceSpan => "answer_trace_span"

inductive EvidenceEdgeKind where
  | usedBy
  | derivedFrom
  deriving DecidableEq

def EvidenceEdgeKind.name : EvidenceEdgeKind → String
  | usedBy => "used_by"
  | derivedFrom => "derived_from"

structure EvidenceNode where
  id : String
  kind : EvidenceNodeKind
  evidenceHash : String

structure EvidenceEdge where
  source : String
  target : String
  kind : EvidenceEdgeKind

structure EvidenceSubgraph where
  schema : String
  answerId : String
  nodes : List EvidenceNode
  edges : List EvidenceEdge
  graphHash : String

/-- A unit variant stands as its name, or as an object with that one key and `null`. -/
def readVariant (names : List (String × α)) (v : Json) : Option α :=
  match v with
  | .str name => names.lookup name
  | .obj [(name, .null)] => names.lookup name
  | _ => none

def nodeKinds : List (String × EvidenceNodeKind) :=
  [EvidenceNodeKind.providerTrace, .contextPack, .memoryAtom, .toolReceipt, .ledgerEvent, .answerTraceSpan].map
    fun kind => (kind.name, kind)

def edgeKinds : List (String × EvidenceEdgeKind) :=
  [EvidenceEdgeKind.usedBy, .derivedFrom].map fun kind => (kind.name, kind)

def EvidenceNode.toJson (n : EvidenceNode) : Json := .obj [
  ("id", .str n.id), ("kind", .str n.kind.name), ("evidence_hash", .str n.evidenceHash)]

def EvidenceEdge.toJson (e : EvidenceEdge) : Json := .obj [
  ("from", .str e.source), ("to", .str e.target), ("kind", .str e.kind.name)]

def EvidenceNode.ofJson? (v : Json) : Option EvidenceNode := do
  let fields ← fieldsOf ["id", "kind", "evidence_hash"] v
  some {
    id := ← readTextField fields "id"
    kind := ← (Json.lookup "kind" fields).bind (readVariant nodeKinds)
    evidenceHash := ← readTextField fields "evidence_hash" }

def EvidenceEdge.ofJson? (v : Json) : Option EvidenceEdge := do
  let fields ← fieldsOf ["from", "to", "kind"] v
  some {
    source := ← readTextField fields "from"
    target := ← readTextField fields "to"
    kind := ← (Json.lookup "kind" fields).bind (readVariant edgeKinds) }

namespace EvidenceSubgraph

def toJson (g : EvidenceSubgraph) : Json := .obj [
  ("schema", .str g.schema),
  ("answer_id", .str g.answerId),
  ("nodes", .arr (g.nodes.map EvidenceNode.toJson)),
  ("edges", .arr (g.edges.map EvidenceEdge.toJson)),
  ("graph_hash", .str g.graphHash)]

def ofJson? (v : Json) : Option EvidenceSubgraph := do
  let fields ← fieldsOf ["schema", "answer_id", "nodes", "edges", "graph_hash"] v
  some {
    schema := ← readTextField fields "schema"
    answerId := ← readTextField fields "answer_id"
    nodes := ← (Json.lookup "nodes" fields).bind (readList EvidenceNode.ofJson?)
    edges := ← (Json.lookup "edges" fields).bind (readList EvidenceEdge.ofJson?)
    graphHash := ← readTextField fields "graph_hash" }

def expectedHash (host : Host) (g : EvidenceSubgraph) : String := stableHashJson host (.obj [
  ("schema", .str g.schema),
  ("answer_id", .str g.answerId),
  ("nodes", .arr (g.nodes.map EvidenceNode.toJson)),
  ("edges", .arr (g.edges.map EvidenceEdge.toJson))])

def verifyHash (host : Host) (g : EvidenceSubgraph) : Bool := g.graphHash ≠ "" ∧ g.graphHash = g.expectedHash host

end EvidenceSubgraph

end Zaion.Turn
