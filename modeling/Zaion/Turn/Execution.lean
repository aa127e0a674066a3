import Zaion.Turn.State

/-! The JSON form `derive(Serialize, Deserialize)` gives a turn's result. Reading takes
a struct from an object by field name or from an array by position, an enum from an
object with the variant's name as its one key. -/
namespace Zaion.Turn

def texts (items : List String) : Json := .arr (items.map .str)

def RuntimeOutput.toJson (o : RuntimeOutput) : Json := .obj [
  ("runtime_owner", .str o.runtimeOwner),
  ("runtime_topology", texts o.runtimeTopology),
  ("provider_response_hash", .str o.providerResponseHash),
  ("context_pack_id", .str o.contextPackId),
  ("memory_atom_ids", texts o.memoryAtomIds),
  ("tool_receipt_ids", texts o.toolReceiptIds),
  ("stream_hash", .str o.streamHash)]

/-- An absent join event is not written at all. -/
def ProofClosure.toJson (c : ProofClosure) : Json := .obj ([
  ("schema_version", .nat c.schemaVersion.toNat),
  ("answer_trace_event_id", .str c.answerTraceEventId),
  ("turn_proof_event_id", .str c.turnProofEventId),
  ("proof_hash", .str c.proofHash)] ++
  (match c.receiptProofJoinEventId with
    | some id => [("receipt_proof_join_event_id", .str id)]
    | none => []) ++
  [("evidence_graph_hash", .str c.evidenceGraphHash)])

def DegradationReport.toJson (r : DegradationReport) : Json := .obj [
  ("reason_code", .str r.reasonCode),
  ("safe_response", .bool r.safeResponse),
  ("lost_capabilities", texts r.lostCapabilities)]

def TurnError.toJson (e : TurnError) : Json := .obj [
  ("reason_code", .str e.reasonCode),
  ("message", .str e.message)]

def PartialLedgerTail.toJson (t : PartialLedgerTail) : Json := .obj [
  ("appended_event_ids", texts t.appendedEventIds),
  ("last_safe_parent_event_id", .ofOption .str t.lastSafeParentEventId)]

def QuarantineEvent.toJson (q : QuarantineEvent) : Json := .obj [
  ("level", .nat q.level.toNat),
  ("reason_code", .str q.reasonCode),
  ("diagnostic_scope", .str q.diagnosticScope)]

def TurnOutcome.toJson : TurnOutcome → Json
  | .completed closure => .obj [("Completed", closure.toJson)]
  | .degraded closure report => .obj [("Degraded", .arr [closure.toJson, report.toJson])]
  | .aborted error tail => .obj [("Aborted", .arr [error.toJson, tail.toJson])]
  | .quarantined event => .obj [("Quarantined", event.toJson)]

def TurnExecution.toJson : TurnExecution → Json
  | .finished output outcome => .obj [("Finished", .obj [
      ("output", .ofOption RuntimeOutput.toJson output),
      ("outcome", outcome.toJson)])]
  | .handled kind => .obj [("Handled", .obj [("kind", .str kind)])]
  | .scheduled taskId startEventId => .obj [("Scheduled", .obj [
      ("task_id", .str taskId), ("start_event_id", .str startEventId)])]

/-- The named fields a struct is read from. -/
def fieldsOf (names : List String) : Json → Option (List (String × Json))
  | .obj fields => some fields
  | .arr items => if items.length = names.length then some (names.zip items) else none
  | _ => none

def readText (v : Option Json) : Option String := v.bind Json.asStr

def readBool (v : Option Json) : Option Bool := v.bind Json.asBool

def readU8 (v : Option Json) : Option UInt8 :=
  (v.bind Json.asU64).bind (fun n => if n < 256 then some (UInt8.ofNat n) else none)

def readTexts (v : Option Json) : Option (List String) :=
  (v.bind Json.asArray).bind (fun items => items.mapM Json.asStr)

/-- An `Option` field may be absent or `null`. -/
def readOption (read : Json → Option α) : Option Json → Option (Option α)
  | none | some .null => some none
  | some v => (read v).map some

/-- Name and content of the variant an enum value holds. -/
def variant : Json → Option (String × Json)
  | .obj [tagged] => some tagged
  | _ => none

def RuntimeOutput.ofJson? (v : Json) : Option RuntimeOutput := do
  let fields ← fieldsOf ["runtime_owner", "runtime_topology", "provider_response_hash",
    "context_pack_id", "memory_atom_ids", "tool_receipt_ids", "stream_hash"] v
  some {
    runtimeOwner := ← readText (Json.lookup "runtime_owner" fields)
    runtimeTopology := ← readTexts (Json.lookup "runtime_topology" fields)
    providerResponseHash := ← readText (Json.lookup "provider_response_hash" fields)
    contextPackId := ← readText (Json.lookup "context_pack_id" fields)
    memoryAtomIds := ← readTexts (Json.lookup "memory_atom_ids" fields)
    toolReceiptIds := ← readTexts (Json.lookup "tool_receipt_ids" fields)
    streamHash := ← readText (Json.lookup "stream_hash" fields) }

def ProofClosure.ofJson? (v : Json) : Option ProofClosure := do
  let fields ← fieldsOf ["schema_version", "answer_trace_event_id", "turn_proof_event_id",
    "proof_hash", "receipt_proof_join_event_id", "evidence_graph_hash"] v
  some {
    schemaVersion := ← readU8 (Json.lookup "schema_version" fields)
    answerTraceEventId := ← readText (Json.lookup "answer_trace_event_id" fields)
    turnProofEventId := ← readText (Json.lookup "turn_proof_event_id" fields)
    proofHash := ← readText (Json.lookup "proof_hash" fields)
    receiptProofJoinEventId := ← readOption Json.asStr (Json.lookup "receipt_proof_join_event_id" fields)
    evidenceGraphHash := ← readText (Json.lookup "evidence_graph_hash" fields) }

def DegradationReport.ofJson? (v : Json) : Option DegradationReport := do
  let fields ← fieldsOf ["reason_code", "safe_response", "lost_capabilities"] v
  some {
    reasonCode := ← readText (Json.lookup "reason_code" fields)
    safeResponse := ← readBool (Json.lookup "safe_response" fields)
    lostCapabilities := ← readTexts (Json.lookup "lost_capabilities" fields) }

def TurnError.ofJson? (v : Json) : Option TurnError := do
  let fields ← fieldsOf ["reason_code", "message"] v
  some { reasonCode := ← readText (Json.lookup "reason_code" fields), message := ← readText (Json.lookup "message" fields) }

def PartialLedgerTail.ofJson? (v : Json) : Option PartialLedgerTail := do
  let fields ← fieldsOf ["appended_event_ids", "last_safe_parent_event_id"] v
  some {
    appendedEventIds := ← readTexts (Json.lookup "appended_event_ids" fields)
    lastSafeParentEventId := ← readOption Json.asStr (Json.lookup "last_safe_parent_event_id" fields) }

def QuarantineEvent.ofJson? (v : Json) : Option QuarantineEvent := do
  let fields ← fieldsOf ["level", "reason_code", "diagnostic_scope"] v
  some {
    level := ← readU8 (Json.lookup "level" fields)
    reasonCode := ← readText (Json.lookup "reason_code" fields)
    diagnosticScope := ← readText (Json.lookup "diagnostic_scope" fields) }

def TurnOutcome.ofJson? (v : Json) : Option TurnOutcome := do
  match ← variant v with
  | ("Completed", content) => some (.completed (← ProofClosure.ofJson? content))
  | ("Degraded", .arr [closure, report]) =>
    some (.degraded (← ProofClosure.ofJson? closure) (← DegradationReport.ofJson? report))
  | ("Aborted", .arr [error, tail]) =>
    some (.aborted (← TurnError.ofJson? error) (← PartialLedgerTail.ofJson? tail))
  | ("Quarantined", content) => some (.quarantined (← QuarantineEvent.ofJson? content))
  | _ => none

/-- `serde_json::from_value::<TurnExecution>`. -/
def TurnExecution.ofJson? (v : Json) : Option TurnExecution := do
  match ← variant v with
  | ("Finished", content) =>
    let fields ← fieldsOf ["output", "outcome"] content
    some (.finished (← readOption RuntimeOutput.ofJson? (Json.lookup "output" fields))
      (← (Json.lookup "outcome" fields).bind TurnOutcome.ofJson?))
  | ("Handled", content) =>
    let fields ← fieldsOf ["kind"] content
    some (.handled (← readText (Json.lookup "kind" fields)))
  | ("Scheduled", content) =>
    let fields ← fieldsOf ["task_id", "start_event_id"] content
    some (.scheduled (← readText (Json.lookup "task_id" fields)) (← readText (Json.lookup "start_event_id" fields)))
  | _ => none

section

attribute [local simp] Json.lookup fieldsOf readText readBool readOption variant Json.asStr
  Json.asBool Json.ofOption

/-- One field after the other. -/
theorem reads {x : Option α} {f : α → Option β} {a : α} {b : β} (field : x = some a) (rest : f a = some b) :
    (x >>= f) = some b := by
  rw [field]
  exact rest

@[simp] theorem mapM_asStr (items : List String) : (items.map Json.str).mapM Json.asStr = some items := by
  induction items with
  | nil => rfl
  | cons item items ih =>
    rw [List.map_cons,List.mapM_cons,ih]
    rfl

@[simp] theorem readTexts_texts (items : List String) : readTexts (some (texts items)) = some items := by
  simp only [readTexts,texts,Json.asArray,Option.bind_some,mapM_asStr]

theorem readText_of {v : Option Json} {text : String} (h : v = some (.str text)) : readText v = some text := by
  simp [h]

theorem readTexts_of {v : Option Json} {items : List String} (h : v = some (texts items)) :
    readTexts v = some items := by
  simp [h]

@[simp] theorem readU8_nat (n : UInt8) : readU8 (some (.nat n.toNat)) = some n := by
  simp [readU8,Json.nat,Json.asU64,n.toNat_lt]

@[simp] theorem RuntimeOutput.ofJson_toJson (o : RuntimeOutput) : ofJson? o.toJson = some o := by
  refine reads rfl ?_
  apply reads (a := o.runtimeOwner)
  · exact readText_of (by simp)
  apply reads (a := o.runtimeTopology)
  · exact readTexts_of (by simp)
  apply reads (a := o.providerResponseHash)
  · exact readText_of (by simp)
  apply reads (a := o.contextPackId)
  · exact readText_of (by simp)
  apply reads (a := o.memoryAtomIds)
  · exact readTexts_of (by simp)
  apply reads (a := o.toolReceiptIds)
  · exact readTexts_of (by simp)
  apply reads (a := o.streamHash)
  · exact readText_of (by simp)
  rfl

@[simp] theorem ProofClosure.ofJson_toJson (c : ProofClosure) : ofJson? c.toJson = some c := by
  refine reads rfl ?_
  apply reads (a := c.schemaVersion)
  · simp
  apply reads (a := c.answerTraceEventId)
  · exact readText_of (by simp)
  apply reads (a := c.turnProofEventId)
  · exact readText_of (by simp)
  apply reads (a := c.proofHash)
  · exact readText_of (by simp)
  apply reads (a := c.receiptProofJoinEventId)
  · cases c.receiptProofJoinEventId <;> simp
  apply reads (a := c.evidenceGraphHash)
  · cases c.receiptProofJoinEventId <;> exact readText_of (by simp)
  rfl

@[simp] theorem DegradationReport.ofJson_toJson (r : DegradationReport) : ofJson? r.toJson = some r := by
  simp [ofJson?,toJson]

@[simp] theorem TurnError.ofJson_toJson (e : TurnError) : ofJson? e.toJson = some e := by
  simp [ofJson?,toJson]

@[simp] theorem PartialLedgerTail.ofJson_toJson (t : PartialLedgerTail) : ofJson? t.toJson = some t := by
  refine reads rfl ?_
  apply reads (a := t.appendedEventIds)
  · exact readTexts_of (by simp)
  apply reads (a := t.lastSafeParentEventId)
  · cases t.lastSafeParentEventId <;> simp
  rfl

@[simp] theorem QuarantineEvent.ofJson_toJson (q : QuarantineEvent) : ofJson? q.toJson = some q := by
  simp [ofJson?,toJson]

@[simp] theorem TurnOutcome.ofJson_toJson (o : TurnOutcome) : ofJson? o.toJson = some o := by
  cases o <;> simp [ofJson?,toJson]

/-- A result read back is the result written. -/
@[simp] theorem TurnExecution.ofJson_toJson (e : TurnExecution) : ofJson? e.toJson = some e := by
  cases e with
  | finished output outcome =>
    cases output with
    | none => simp [ofJson?,toJson]
    | some o =>
      have shape : ∃ fields, o.toJson = .obj fields := ⟨_, rfl⟩
      obtain ⟨fields, shape⟩ := shape
      have read := RuntimeOutput.ofJson_toJson o
      rw [shape] at read
      simp [ofJson?,toJson,shape,read]
  | handled kind => simp [ofJson?,toJson]
  | scheduled taskId startEventId => simp [ofJson?,toJson]

end

end Zaion.Turn
