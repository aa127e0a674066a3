import Zaion.Ledger.Binding
import Zaion.Sample
import Zaion.Turn.Proof

/-! `ProofClosureVerifier`: the closure of a finished turn is read off the ledger, from the answer
trace and the turn proof to the events these name, and every event on the way must be signed. -/
namespace Zaion.Turn

open Lib Ledger

/-- The message of the signature check is left out of `invalidSignature`. -/
inductive ProofClosureError where
  | ledger (error : LedgerError)
  | missingEvent (eventId : String)
  | wrongEventType (eventId expected actual : String)
  | scopeMismatch
  | parentMismatch (eventId expected : String)
  | invalidSignature (eventId : String)
  | invalidTurnProof (detail : String)
  | invalidTurnProofHash
  | evidenceGraphMismatch
  | invalidNamespaceTransition (detail : String)
  | invalidEvidenceGraph
  | missingEvidenceNode (nodeId : String)
  | missingReceiptProofJoin
  | invalidReceiptProofJoin
  | brokenLedgerChain (sequence : Int)

/-- `describe` is the message of a turn proof that cannot be read. -/
structure ProofClosureVerifier where
  host : Host
  rows : List EventRow
  publicKey : List UInt8
  describe : Json → String

namespace ProofClosureVerifier

variable (v : ProofClosureVerifier)

/-- `get_event`. -/
def getEvent (eventId : String) : Except LedgerError (Option LedgerEvent) :=
  match findEvent v.rows eventId with
  | none => .ok none
  | some row => some <$> rowToEvent v.host row

def event (eventId expectedType : String) : Except ProofClosureError LedgerEvent := do
  let found ← (v.getEvent eventId).mapError ProofClosureError.ledger
  let event ← required found (ProofClosureError.missingEvent eventId)
  ensure (event.eventType = expectedType) (ProofClosureError.wrongEventType eventId expectedType event.eventType)
  .ok event

def verifySignature (event : LedgerEvent) : Except ProofClosureError Unit :=
  ensure ((verifyEventSignature v.host v.publicKey event).isSome = true) (ProofClosureError.invalidSignature event.eventId)

/-- The evidence graph an answer trace carries. -/
def answerGraph (answer : LedgerEvent) : Except ProofClosureError EvidenceSubgraph := do
  let stored ← required (answer.payload.get "evidence_graph") ProofClosureError.invalidEvidenceGraph
  let graph ← required (EvidenceSubgraph.ofJson? stored) ProofClosureError.invalidEvidenceGraph
  let answerGraphHash ← required (answer.payload.textAt ["evidence_graph_hash"]) ProofClosureError.invalidEvidenceGraph
  ensure (graph.verifyHash v.host = true ∧ graph.graphHash = answerGraphHash) ProofClosureError.invalidEvidenceGraph
  .ok graph

/-- The turn proof an event carries, against its answer trace. -/
def readProof (answerTraceEventId : String) (answer proofEvent : LedgerEvent) (answerGraphHash : String) :
    Except ProofClosureError TurnProof := do
  let proof ← required (TurnProof.ofJson? proofEvent.payload) (ProofClosureError.invalidTurnProof (v.describe proofEvent.payload))
  ensure (verifyTurnProofHash v.host proof = true) ProofClosureError.invalidTurnProofHash
  ensure (proof.principalId = proofEvent.principalId ∧ proof.namespaceKey = proofEvent.namespaceKey)
    ProofClosureError.scopeMismatch
  ensure (proofEvent.payload.textAt ["answer_trace_event_id"] = some answerTraceEventId)
    (ProofClosureError.invalidTurnProof "answer_trace_event_id does not match parent")
  ensure (proof.evidenceGraphHash = some answerGraphHash) ProofClosureError.evidenceGraphMismatch
  ensure (answer.payload.textAt ["namespace_transition_event_id"] = proof.namespaceTransitionEventId)
    (ProofClosureError.invalidNamespaceTransition "answer trace and turn proof transition ids do not match")
  .ok proof

/-- `received -> route -> sent`, or `received -> sent` without a route. -/
def checkRoute (proofEvent : LedgerEvent) (proof : TurnProof) (received sent : LedgerEvent) :
    Except ProofClosureError Unit :=
  match proof.omniRouteEventId with
  | some routeEventId => do
    let route ← v.event routeEventId "omni.route"
    v.verifySignature route
    ensure (route.principalId = proofEvent.principalId ∧ route.namespaceKey = received.namespaceKey)
      ProofClosureError.scopeMismatch
    ensure (sent.parentEventId = some routeEventId ∧ route.parentEventId = some proof.userEventId)
      (ProofClosureError.invalidTurnProof "received -> route -> sent lineage is not closed")
  | none => ensure (sent.parentEventId = some proof.userEventId)
    (ProofClosureError.invalidTurnProof "received -> sent lineage is not closed")

def checkTransition (proofEvent : LedgerEvent) (proof : TurnProof) (received : LedgerEvent) :
    Except ProofClosureError Unit :=
  match decide (received.namespaceKey = proofEvent.namespaceKey), proof.namespaceTransitionEventId with
  | true, none => .ok ()
  | true, some _ => .error (.invalidNamespaceTransition "same-namespace turn must not declare a transition event")
  | false, none => .error (.invalidNamespaceTransition "cross-namespace turn is missing a transition event")
  | false, some transitionEventId => do
    let transition ← v.event transitionEventId "channel.received"
    v.verifySignature transition
    ensure (transition.principalId = proofEvent.principalId ∧ transition.namespaceKey = proofEvent.namespaceKey)
      ProofClosureError.scopeMismatch
    ensure (transition.parentEventId = some proof.userEventId)
      (ProofClosureError.parentMismatch transitionEventId proof.userEventId)
    ensure (transition.payload.textAt ["source_parent_namespace_key"] = some received.namespaceKey ∧
        transition.payload.textAt ["source_parent_received_event_id"] = some proof.userEventId ∧
        transition.payload.textAt ["source"] = some "compression.active_child_continuation" ∧
        transition.payload.textAt ["copy_policy"] = some "active_child_turn_materialization")
      (ProofClosureError.invalidNamespaceTransition "signed transition payload does not bind the source ingress and policy")

def expectedLineage (proof : TurnProof) : List String :=
  [proof.userEventId] ++ proof.omniRouteEventId.toList ++ proof.namespaceTransitionEventId.toList ++
    [proof.outputEventId] ++ proof.toolReceiptIds

def requireGraphNode (graph : EvidenceSubgraph) (start id : String) : Except ProofClosureError Unit :=
  ensure ((start ++ ":" ++ id) ∈ graph.nodes.map EvidenceNode.id) (ProofClosureError.missingEvidenceNode (start ++ ":" ++ id))

/-- The graph mentions every event and every input of the turn. -/
def checkNodes (graph : EvidenceSubgraph) (proof : TurnProof) : Except ProofClosureError Unit := do
  requireGraphNode graph "ledger-event" proof.userEventId
  requireGraphNode graph "ledger-event" proof.outputEventId
  checkAll (requireGraphNode graph "ledger-event") proof.omniRouteEventId.toList
  checkAll (requireGraphNode graph "ledger-event") proof.namespaceTransitionEventId.toList
  checkAll (requireGraphNode graph "context-pack") proof.contextPackId.toList
  checkAll (requireGraphNode graph "memory-atom") proof.memoryAtomIds

def checkReceipt (graph : EvidenceSubgraph) (proofEvent : LedgerEvent) (receiptId : String) : Except ProofClosureError Unit := do
  requireGraphNode graph "tool-receipt" receiptId
  let receipt ← v.event receiptId "tool.receipt"
  v.verifySignature receipt
  ensure (receipt.principalId = proofEvent.principalId ∧ receipt.namespaceKey = proofEvent.namespaceKey)
    ProofClosureError.scopeMismatch

/-- The receipts a join lists: the texts in its array. -/
def joinedReceipts (join : LedgerEvent) : List String :=
  (((join.payload.get "tool_receipt_ids").bind Json.asArray).getD []).filterMap Json.asStr

def checkJoin (answerTraceEventId turnProofEventId : String) (proofEvent : LedgerEvent) (proof : TurnProof) :
    Option String → Except ProofClosureError (Option String)
  | some eventId => do
    let join ← v.event eventId "tool.receipt.proof_join"
    v.verifySignature join
    ensure (join.principalId = proofEvent.principalId ∧ join.namespaceKey = proofEvent.namespaceKey)
      ProofClosureError.scopeMismatch
    ensure (join.parentEventId = some turnProofEventId) (ProofClosureError.parentMismatch eventId turnProofEventId)
    ensure (join.payload.textAt ["turn_proof_event_id"] = some turnProofEventId ∧
        join.payload.textAt ["turn_proof_hash"] = some proof.proofHash ∧
        join.payload.textAt ["answer_trace_event_id"] = some answerTraceEventId ∧
        joinedReceipts join = proof.toolReceiptIds) ProofClosureError.invalidReceiptProofJoin
    .ok (some eventId)
  | none => do
    ensure (proof.toolReceiptIds = []) ProofClosureError.missingReceiptProofJoin
    .ok none

def checkChain (principalId : String) : Except ProofClosureError Unit := do
  let chain ← (verifyChain v.host v.rows principalId).mapError ProofClosureError.ledger
  match chain.brokenAt with
  | some sequence => .error (.brokenLedgerChain sequence)
  | none => .ok ()

def verify (answerTraceEventId turnProofEventId : String) (receiptProofJoinEventId : Option String) :
    Except ProofClosureError ProofClosure := do
  let answer ← v.event answerTraceEventId "answer.trace"
  let proofEvent ← v.event turnProofEventId "turn.proof"
  v.verifySignature answer
  v.verifySignature proofEvent
  ensure (answer.principalId = proofEvent.principalId ∧ answer.namespaceKey = proofEvent.namespaceKey)
    ProofClosureError.scopeMismatch
  ensure (proofEvent.parentEventId = some answerTraceEventId)
    (ProofClosureError.parentMismatch turnProofEventId answerTraceEventId)
  let graph ← v.answerGraph answer
  let proof ← v.readProof answerTraceEventId answer proofEvent graph.graphHash
  let received ← v.event proof.userEventId "channel.received"
  let sent ← v.event proof.outputEventId "channel.sent"
  v.verifySignature received
  v.verifySignature sent
  ensure (received.principalId = proofEvent.principalId ∧ sent.principalId = proofEvent.principalId)
    ProofClosureError.scopeMismatch
  ensure (sent.namespaceKey = proofEvent.namespaceKey) ProofClosureError.scopeMismatch
  ensure (answer.parentEventId = some proof.outputEventId ∧ answer.payload.textAt ["user_event_id"] = some proof.userEventId ∧
      answer.payload.textAt ["output_event_id"] = some proof.outputEventId)
    (ProofClosureError.invalidTurnProof "answer trace lineage does not match turn proof")
  v.checkRoute proofEvent proof received sent
  v.checkTransition proofEvent proof received
  ensure (proof.eventLineage = expectedLineage proof)
    (ProofClosureError.invalidTurnProof "event_lineage does not match the proof event ids")
  checkNodes graph proof
  checkAll (v.checkReceipt graph proofEvent) proof.toolReceiptIds
  let receiptJoinId ← v.checkJoin answerTraceEventId turnProofEventId proofEvent proof receiptProofJoinEventId
  v.checkChain answer.principalId
  .ok {
    schemaVersion := 1
    answerTraceEventId := answerTraceEventId
    turnProofEventId := turnProofEventId
    proofHash := proof.proofHash
    receiptProofJoinEventId := receiptJoinId
    evidenceGraphHash := graph.graphHash }

/-! What a verified closure rests on -/

/-- The event stored under an id. -/
def Stores (eventId : String) (event : LedgerEvent) : Prop := v.getEvent eventId = .ok (some event)

/-- The events a turn proof names. -/
def namedEvents (proof : TurnProof) : List String :=
  [proof.userEventId, proof.outputEventId] ++ proof.omniRouteEventId.toList ++ proof.namespaceTransitionEventId.toList ++
    proof.toolReceiptIds

/-- Answer trace, turn proof, the events the proof names, and the receipt join where there is one. -/
def RestsOn (answerTraceEventId turnProofEventId : String) (receiptProofJoinEventId : Option String) (event : LedgerEvent) :
    Prop :=
  ∃ eventId, v.Stores eventId event ∧
    (eventId = answerTraceEventId ∨ eventId = turnProofEventId ∨ receiptProofJoinEventId = some eventId ∨
      ∃ proofEvent proof, v.Stores turnProofEventId proofEvent ∧ TurnProof.ofJson? proofEvent.payload = some proof ∧
        eventId ∈ namedEvents proof)

/-- The bytes a signature of the event must cover. -/
def envelope (event : LedgerEvent) : List UInt8 :=
  eventEnvelopeSigningBytes v.host event.principalId event.namespaceKey event.runId event.eventType event.payload
    event.parentEventId

/-- The bytes a legacy signature covers. -/
def barePayload (event : LedgerEvent) : List UInt8 := Host.utf8 (v.host.toText event.payload)

/-- Only what the holder of the key signed verifies under it. -/
def Unforgeable (signed : Set (List UInt8)) : Prop :=
  ∀ message signature, v.host.verifySignature v.publicKey message signature = true → message ∈ signed

/-- An event that passed the type and signature checks. -/
def Checked (eventId : String) : Prop :=
  ∃ type event, v.event eventId type = .ok event ∧ v.verifySignature event = .ok ()

variable {v : ProofClosureVerifier} {eventId type answerTraceEventId turnProofEventId : String}
  {receiptProofJoinEventId : Option String} {event proofEvent received sent : LedgerEvent} {proof : TurnProof}
  {graph : EvidenceSubgraph} {closure : ProofClosure} {signed : Set (List UInt8)} {u : Unit}

theorem stores_of_event (read : v.event eventId type = .ok event) : v.Stores eventId event := by
  simp only [ProofClosureVerifier.event,bind_ok_iff,mapError_ok_iff,required_ok_iff] at read
  obtain ⟨found, stored, read, present, _, _, result⟩ := read
  cases result
  rw [present] at stored
  exact stored

theorem Stores.unique {other : LedgerEvent} (stored : v.Stores eventId event) (again : v.Stores eventId other) : event = other :=
  Option.some.inj (Except.ok.inj (stored.symm.trans again))

/-- A checked event is signed, over its envelope or over its bare payload. -/
theorem Checked.covered (checked : v.Checked eventId) (unforgeable : v.Unforgeable signed) (stored : v.Stores eventId event) :
    v.envelope event ∈ signed ∨ v.barePayload event ∈ signed := by
  obtain ⟨type, own, read, valid⟩ := checked
  obtain rfl := (stores_of_event read).unique stored
  obtain ⟨mode, accepted⟩ := Option.isSome_iff_exists.mp (ensure_ok_iff.mp valid)
  simp only [verifyEventSignature,Option.bind_eq_bind,Option.bind_eq_some_iff] at accepted
  obtain ⟨signature, _, accepted⟩ := accepted
  split at accepted
  · rename_i canonical
    exact .inl (unforgeable _ _ canonical)
  · split at accepted
    · rename_i legacy
      exact .inr (unforgeable _ _ legacy)
    · cases accepted

theorem checkRoute_ok (ran : v.checkRoute proofEvent proof received sent = .ok u) :
    ∀ eventId ∈ proof.omniRouteEventId.toList, v.Checked eventId := by
  intro eventId member
  rw [Option.mem_toList] at member
  rw [checkRoute,member] at ran
  simp only [bind_ok_iff] at ran
  obtain ⟨route, read, _, valid, _⟩ := ran
  exact ⟨_, route, read, valid⟩

theorem checkTransition_ok (ran : v.checkTransition proofEvent proof received = .ok u) :
    ∀ eventId ∈ proof.namespaceTransitionEventId.toList, v.Checked eventId := by
  intro eventId member
  rw [Option.mem_toList] at member
  rw [checkTransition,member] at ran
  split at ran
  · rename_i none; cases none
  · cases ran
  · rename_i none; cases none
  · rename_i some
    cases some
    simp only [bind_ok_iff] at ran
    obtain ⟨transition, read, _, valid, _⟩ := ran
    exact ⟨_, transition, read, valid⟩

theorem checkReceipt_ok (ran : v.checkReceipt graph proofEvent eventId = .ok u) : v.Checked eventId := by
  simp only [checkReceipt,bind_ok_iff] at ran
  obtain ⟨_, _, receipt, read, _, valid, _⟩ := ran
  exact ⟨_, receipt, read, valid⟩

theorem checkJoin_ok {joined : Option String}
    (ran : v.checkJoin answerTraceEventId turnProofEventId proofEvent proof (some eventId) = .ok joined) : v.Checked eventId := by
  simp only [checkJoin,bind_ok_iff] at ran
  obtain ⟨join, read, _, valid, _⟩ := ran
  exact ⟨_, join, read, valid⟩

/-- Every event a verified closure rests on has been checked. -/
theorem checked_of_verify (verified : v.verify answerTraceEventId turnProofEventId receiptProofJoinEventId = .ok closure)
    (rests : v.RestsOn answerTraceEventId turnProofEventId receiptProofJoinEventId event) :
    ∃ eventId, v.Stores eventId event ∧ v.Checked eventId := by
  simp only [verify,bind_ok_iff] at verified
  obtain ⟨answer, answer_read, proofEvent, proof_read, _, answer_valid, _, proof_valid, _, _, _, _, graph, _, proof, parsed,
    received, received_read, sent, sent_read, _, received_valid, _, sent_valid, _, _, _, _, _, _, _, route, _, transition,
    _, _, _, _, _, receipts, joined, join, _⟩ := verified
  obtain ⟨eventId, stored, role⟩ := rests
  refine ⟨eventId, stored, ?_⟩
  rcases role with rfl | rfl | rfl | ⟨proofEvent', proof', stored_proof, parsed', named⟩
  · exact ⟨_, answer, answer_read, answer_valid⟩
  · exact ⟨_, proofEvent, proof_read, proof_valid⟩
  · exact checkJoin_ok join
  · obtain rfl := stored_proof.unique (stores_of_event proof_read)
    simp only [readProof,bind_ok_iff,required_ok_iff] at parsed
    obtain ⟨_, own, _, _, _, _, _, _, _, _, _, _, result⟩ := parsed
    cases result
    obtain rfl := Option.some.inj (own.symm.trans parsed')
    simp only [namedEvents,List.mem_append,List.mem_cons,List.not_mem_nil,or_false] at named
    rcases named with (((rfl | rfl) | named) | named) | named
    · exact ⟨_, received, received_read, received_valid⟩
    · exact ⟨_, sent, sent_read, sent_valid⟩
    · exact checkRoute_ok route eventId named
    · exact checkTransition_ok transition eventId named
    · exact checkReceipt_ok (checkAll_ok_iff.mp receipts eventId named)

end ProofClosureVerifier

/-- The envelope of a note that the holder of the key signed. -/
def noteEnvelope : Json := .obj [
  ("schema", .str "zaion.event.signature.v2"),
  ("principal_id", .str "zaion1alice"),
  ("namespace_key", .str "main"),
  ("run_id", .null),
  ("event_type", .str "note"),
  ("payload", .str "hello"),
  ("parent_event_id", .null)]

/-- An event of `zaion1alice` signed in its envelope. -/
def turnEvent (eventId eventType : String) (payload : Json) (parentEventId : Option String) : LedgerEvent where
  eventId := eventId
  principalId := "zaion1alice"
  namespaceKey := "main"
  runId := none
  eventType := eventType
  payload := payload
  signature := some ([1] ++
    eventEnvelopeSigningBytes sampleHost "zaion1alice" "main" none eventType payload parentEventId)
  createdAt := "2026-01-01T00:00:00.000Z"
  parentEventId := parentEventId

def turnGraph : EvidenceSubgraph :=
  let graph : EvidenceSubgraph := {
    schema := "zaion.evidence_subgraph.v1"
    answerId := "provider-response:r"
    nodes := [⟨"ledger-event:evt-received", .ledgerEvent, "a"⟩, ⟨"ledger-event:evt-sent", .ledgerEvent, "b"⟩]
    edges := []
    graphHash := "" }
  { graph with graphHash := graph.expectedHash sampleHost }

def turnProof : TurnProof :=
  let proof : TurnProof := {
    schemaVersion := 1
    proofId := "turn-proof-1"
    principalId := "zaion1alice"
    workspaceId := "w"
    projectId := "p"
    channelId := "terminal"
    threadId := "main"
    namespaceKey := "main"
    userEventId := "evt-received"
    outputEventId := "evt-sent"
    omniRouteEventId := none
    omniRouteAuthorityHash := none
    namespaceTransitionEventId := none
    eventLineage := ["evt-received", "evt-sent"]
    identityContractHash := "i"
    capabilityManifestHash := "m"
    contextPackId := none
    contextDigest := "d"
    contextLayers := []
    memoryAtomIds := []
    compressionEvidence := none
    compressionEvidenceHash := none
    costEvidence := none
    costEvidenceHash := none
    runtimeMemoryEvidence := none
    runtimeMemoryEvidenceHash := none
    evidenceGraphHash := some turnGraph.graphHash
    capabilityManifest := ⟨"openai", "gpt", none, none, false, false, false, false, false, [], []⟩
    tokensIn := 1
    tokensOut := 1
    toolCallCount := 0
    toolReceiptIds := []
    toolReceiptCount := 0
    proofHash := "" }
  { proof with proofHash := stableHashJson sampleHost proof.toJson }

def proofPayload : Json :=
  match turnProof.toJson with
  | .obj fields => .obj (fields ++ [("answer_trace_event_id", .str "evt-answer")])
  | other => other

theorem turnProof_parsed : TurnProof.ofJson? proofPayload = some turnProof := rfl

def receivedEvent : LedgerEvent :=
  { turnEvent "evt-received" "channel.received" noteEnvelope none with
    signature := some ([1] ++ Host.utf8 (sampleHost.toText noteEnvelope)) }

def sentEvent : LedgerEvent := turnEvent "evt-sent" "channel.sent" .null (some "evt-received")

def answerEvent : LedgerEvent := turnEvent "evt-answer" "answer.trace" (.obj [
  ("evidence_graph", turnGraph.toJson),
  ("evidence_graph_hash", .str turnGraph.graphHash),
  ("user_event_id", .str "evt-received"),
  ("output_event_id", .str "evt-sent")]) (some "evt-sent")

def turnProofEvent : LedgerEvent := turnEvent "evt-proof" "turn.proof" proofPayload (some "evt-answer")

def stored (event : LedgerEvent) (seqNum : Int) (prevHash : String) : EventRow :=
  (event.prepared sampleHost).row seqNum prevHash

def receivedRow : EventRow := stored receivedEvent 0 genesisHash
def sentRow : EventRow := stored sentEvent 1 (rowHash sampleHost "zaion1alice" receivedRow)
def answerRow : EventRow := stored answerEvent 2 (rowHash sampleHost "zaion1alice" sentRow)
def proofRow : EventRow := stored turnProofEvent 3 (rowHash sampleHost "zaion1alice" answerRow)

def turnRows : List EventRow := [receivedRow, sentRow, answerRow, proofRow]

/-- What the holder of the key signed: envelopes, and not that of the received event. -/
def turnSigned : List (List UInt8) :=
  [Host.utf8 (sampleHost.toText noteEnvelope), eventEnvelopeSigningBytes sampleHost "zaion1alice" "main" none "channel.sent"
    .null (some "evt-received"), eventEnvelopeSigningBytes sampleHost "zaion1alice" "main" none "answer.trace"
    answerEvent.payload (some "evt-sent"), eventEnvelopeSigningBytes sampleHost "zaion1alice" "main" none "turn.proof"
    proofPayload (some "evt-answer")]

def turnHost : Host :=
  { sampleHost with verifySignature := (fun key message signature =>
      turnSigned.any (fun signed => decide (signed = message)) && decide (signature = key ++ message)) }

def turnVerifier : ProofClosureVerifier := ⟨turnHost, turnRows, [1], fun _ => "invalid turn proof"⟩

theorem rowToEvent_row {host : Host} {event : LedgerEvent} {seqNum : Int} {prevHash : String}
    (reads : host.ofText (host.toText event.payload) = some event.payload) :
    rowToEvent host ((event.prepared host).row seqNum prevHash) = .ok event := by
  obtain ⟨_, _, _, _, _, _, signature, _, _⟩ := event
  cases signature <;> simp_all [rowToEvent,PreparedEvent.row,LedgerEvent.prepared,Functor.map,Except.map]

open ProofClosureVerifier in
theorem event_of_row {v : ProofClosureVerifier} {eventId type : String} {event : LedgerEvent} {seqNum : Int} {prevHash : String}
    (found : findEvent v.rows eventId = some ((event.prepared v.host).row seqNum prevHash)) (typed : event.eventType = type)
    (reads : v.host.ofText (v.host.toText event.payload) = some event.payload) : v.event eventId type = .ok event := by
  have read : v.getEvent eventId = .ok (some event) := by
    rw [getEvent,found]
    simp only [rowToEvent_row reads]
    rfl
  simp only [ProofClosureVerifier.event,read,Except.mapError,ok_bind,required_some,ensure_of typed]

theorem turnRows_found : findEvent turnRows "evt-received" = some receivedRow ∧ findEvent turnRows "evt-sent" = some sentRow ∧
    findEvent turnRows "evt-answer" = some answerRow ∧ findEvent turnRows "evt-proof" = some proofRow := ⟨rfl, rfl, rfl, rfl⟩

theorem turn_reads (payload : Json) (plain : payload.plain = true) :
    turnHost.ofText (turnHost.toText payload) = some payload := sampleHost_readsBack payload plain

/-! What a host does with texts does not depend on how it verifies. -/

theorem toText_verifying (host : Host) (verify : List UInt8 → List UInt8 → List UInt8 → Bool) :
    ({ host with verifySignature := verify } : Host).toText = host.toText := rfl

theorem sha256Hex_verifying (host : Host) (verify : List UInt8 → List UInt8 → List UInt8 → Bool) :
    ({ host with verifySignature := verify } : Host).sha256Hex = host.sha256Hex := rfl

theorem turnHost_toText : turnHost.toText = sampleHost.toText := toText_verifying sampleHost _

theorem turnHost_sha256Hex : turnHost.sha256Hex = sampleHost.sha256Hex := sha256Hex_verifying sampleHost _

theorem prepared_turn (event : LedgerEvent) : event.prepared turnHost = event.prepared sampleHost := by
  rw [LedgerEvent.prepared,LedgerEvent.prepared,turnHost_toText]

theorem envelope_turn (event : LedgerEvent) : turnVerifier.envelope event = eventEnvelopeSigningBytes sampleHost
    event.principalId event.namespaceKey event.runId event.eventType event.payload event.parentEventId := by
  rw [ProofClosureVerifier.envelope,eventEnvelopeSigningBytes,eventEnvelopeSigningBytes,← turnHost_toText]
  rfl

theorem barePayload_turn (event : LedgerEvent) :
    turnVerifier.barePayload event = Host.utf8 (sampleHost.toText event.payload) := by
  rw [ProofClosureVerifier.barePayload,← turnHost_toText]
  rfl

theorem stored_read {eventId type : String} {event : LedgerEvent} {seqNum : Int} {prevHash : String}
    (found : findEvent turnRows eventId = some (stored event seqNum prevHash)) (typed : event.eventType = type)
    (plain : event.payload.plain = true) : turnVerifier.event eventId type = .ok event := by
  rw [stored,← prepared_turn] at found
  exact event_of_row found typed (turn_reads _ plain)

theorem received_read : turnVerifier.event "evt-received" "channel.received" = .ok receivedEvent :=
  stored_read turnRows_found.1 rfl rfl

theorem sent_read : turnVerifier.event "evt-sent" "channel.sent" = .ok sentEvent :=
  stored_read turnRows_found.2.1 rfl rfl

theorem answer_read : turnVerifier.event "evt-answer" "answer.trace" = .ok answerEvent :=
  stored_read turnRows_found.2.2.1 rfl rfl

theorem proofPayload_exact : proofPayload.exact = true := rfl

theorem proofPayload_depth : proofPayload.depth = 3 := rfl

theorem proofPayload_plain : proofPayload.plain = true := by
  rw [Json.plain,proofPayload_exact,proofPayload_depth]
  rfl

theorem proof_read : turnVerifier.event "evt-proof" "turn.proof" = .ok turnProofEvent :=
  stored_read turnRows_found.2.2.2 rfl proofPayload_plain

theorem turn_valid {event : LedgerEvent} {message : List UInt8} (signature : event.signature = some ([1] ++ message))
    (inside : message ∈ turnSigned) (covers : message = turnVerifier.envelope event ∨ message = turnVerifier.barePayload event) :
    turnVerifier.verifySignature event = .ok () := by
  refine ensure_of (Option.isSome_iff_exists.mpr ?_)
  have verifies : turnHost.verifySignature [1] message ([1] ++ message) = true :=
    Bool.and_eq_true_iff.mpr ⟨List.any_eq_true.mpr ⟨message, inside, decide_eq_true rfl⟩, decide_eq_true rfl⟩
  simp only [verifyEventSignature,signature,Option.bind_eq_bind,Option.bind_some]
  split
  · exact ⟨_, rfl⟩
  · rename_i other
    rcases covers with rfl | rfl
    · exact absurd verifies other
    · exact ⟨_, if_pos verifies⟩

theorem received_valid : turnVerifier.verifySignature receivedEvent = .ok () :=
  turn_valid rfl List.mem_cons_self (.inr (barePayload_turn receivedEvent).symm)

/-- An event in a signed envelope verifies. -/
theorem turnEvent_valid {eventId type : String} {payload : Json} {parentEventId : Option String}
    (inside : eventEnvelopeSigningBytes sampleHost "zaion1alice" "main" none type payload parentEventId ∈ turnSigned) :
    turnVerifier.verifySignature (turnEvent eventId type payload parentEventId) = .ok () :=
  turn_valid rfl inside (.inl (envelope_turn (turnEvent eventId type payload parentEventId)).symm)

theorem sent_valid : turnVerifier.verifySignature sentEvent = .ok () := turnEvent_valid (.tail _ (.head _))

theorem answer_valid : turnVerifier.verifySignature answerEvent = .ok () :=
  turnEvent_valid (.tail _ (.tail _ (.head _)))

theorem proof_valid : turnVerifier.verifySignature turnProofEvent = .ok () :=
  turnEvent_valid (.tail _ (.tail _ (.tail _ (.head _))))

theorem stableHash_ne (v : Json) : stableHashJson sampleHost v ≠ "" := by
  intro empty
  have digest : sampleHost.sha256Hex (Host.utf8 (sampleHost.toText v)) = sampleHost.sha256Hex [] := empty
  exact utf8_toText_ne v (sampleHost_collisionFree digest)

/-- Hashing does not look at signatures. -/
theorem stableHash_turn (v : Json) : stableHashJson turnHost v = stableHashJson sampleHost v := by
  rw [stableHashJson,stableHashJson,turnHost_toText,turnHost_sha256Hex]

theorem graph_parsed (hash : String) : EvidenceSubgraph.ofJson? { turnGraph with graphHash := hash }.toJson =
    some { turnGraph with graphHash := hash } := rfl

theorem turnGraph_hash : turnGraph.verifyHash turnHost = true := by
  have hash : turnGraph.graphHash = turnGraph.expectedHash turnHost := (stableHash_turn _).symm
  have written : turnGraph.graphHash ≠ "" := stableHash_ne _
  exact decide_eq_true ⟨written, hash⟩

theorem turn_graph : turnVerifier.answerGraph answerEvent = .ok turnGraph := by
  have stored : answerEvent.payload.get "evidence_graph" = some turnGraph.toJson := rfl
  have hash : answerEvent.payload.textAt ["evidence_graph_hash"] = some turnGraph.graphHash := rfl
  have whole : turnGraph.verifyHash turnVerifier.host = true ∧ turnGraph.graphHash = turnGraph.graphHash :=
    ⟨turnGraph_hash, rfl⟩
  rw [ProofClosureVerifier.answerGraph,stored,required_some,ok_bind,graph_parsed turnGraph.graphHash,required_some,ok_bind,
    hash,required_some,ok_bind,ensure_of whole]
  rfl

theorem turnProof_hash : verifyTurnProofHash turnHost turnProof = true := by
  have hash : stableHashJson turnHost { turnProof with proofHash := "" }.toJson = turnProof.proofHash := stableHash_turn _
  have written : turnProof.proofHash ≠ "" := stableHash_ne _
  exact decide_eq_true ⟨written, hash⟩

theorem turn_proof : turnVerifier.readProof "evt-answer" answerEvent turnProofEvent turnGraph.graphHash = .ok turnProof := by
  have parsed : TurnProof.ofJson? turnProofEvent.payload = some turnProof := turnProof_parsed
  have hash : verifyTurnProofHash turnVerifier.host turnProof = true := turnProof_hash
  have scope : turnProof.principalId = turnProofEvent.principalId ∧ turnProof.namespaceKey = turnProofEvent.namespaceKey :=
    ⟨rfl, rfl⟩
  have trace : turnProofEvent.payload.textAt ["answer_trace_event_id"] = some "evt-answer" := rfl
  have graph : turnProof.evidenceGraphHash = some turnGraph.graphHash := rfl
  have transition : answerEvent.payload.textAt ["namespace_transition_event_id"] = turnProof.namespaceTransitionEventId := rfl
  rw [ProofClosureVerifier.readProof,parsed,required_some,ok_bind,ensure_of hash,ok_bind,ensure_of scope,ok_bind,
    ensure_of trace,ok_bind,ensure_of graph,ok_bind,ensure_of transition]
  rfl

theorem turn_route : turnVerifier.checkRoute turnProofEvent turnProof receivedEvent sentEvent = .ok () := rfl

theorem turn_transition : turnVerifier.checkTransition turnProofEvent turnProof receivedEvent = .ok () := rfl

theorem turn_nodes : ProofClosureVerifier.checkNodes turnGraph turnProof = .ok () := rfl

theorem turn_join : turnVerifier.checkJoin "evt-answer" "evt-proof" turnProofEvent turnProof none = .ok none := rfl

theorem turn_receipts : checkAll (turnVerifier.checkReceipt turnGraph turnProofEvent) turnProof.toolReceiptIds = .ok () := rfl

theorem turnRows_own : rowsOf "zaion1alice" turnRows = turnRows := rfl

theorem turnRows_chained : (chain turnHost "zaion1alice").Chained genesisHash 0 turnRows :=
  ⟨rfl, rfl, rfl, rfl, rfl, rfl, rfl, rfl, trivial⟩

theorem turn_chain : turnVerifier.checkChain "zaion1alice" = .ok () := by
  have sorted : bySeq turnRows = turnRows := (chain turnHost "zaion1alice").mergeSort_chained turnRows_chained
  have room : (0 : Int) + turnRows.length ≤ i64Max := by decide
  have walked : verifyChain turnHost turnRows "zaion1alice" = .ok ⟨4, 0 + 4, none⟩ := by
    rw [verifyChain,turnRows_own,sorted,verifyRows_chained turnRows_chained room]
    rfl
  have whole : verifyChain turnVerifier.host turnVerifier.rows "zaion1alice" = .ok ⟨4, 0 + 4, none⟩ := walked
  simp only [ProofClosureVerifier.checkChain,whole,Except.mapError,ok_bind]

def turnClosure : ProofClosure where
  schemaVersion := 1
  answerTraceEventId := "evt-answer"
  turnProofEventId := "evt-proof"
  proofHash := turnProof.proofHash
  receiptProofJoinEventId := none
  evidenceGraphHash := turnGraph.graphHash

theorem turn_verified : turnVerifier.verify "evt-answer" "evt-proof" none = .ok turnClosure := by
  have scope : answerEvent.principalId = turnProofEvent.principalId ∧ answerEvent.namespaceKey = turnProofEvent.namespaceKey :=
    ⟨rfl, rfl⟩
  have parent : turnProofEvent.parentEventId = some "evt-answer" := rfl
  have received : turnVerifier.event turnProof.userEventId "channel.received" = .ok receivedEvent := received_read
  have sent : turnVerifier.event turnProof.outputEventId "channel.sent" = .ok sentEvent := sent_read
  have principals : receivedEvent.principalId = turnProofEvent.principalId ∧
      sentEvent.principalId = turnProofEvent.principalId := ⟨rfl, rfl⟩
  have namespaces : sentEvent.namespaceKey = turnProofEvent.namespaceKey := rfl
  have answers : answerEvent.parentEventId = some turnProof.outputEventId ∧
      answerEvent.payload.textAt ["user_event_id"] = some turnProof.userEventId ∧
      answerEvent.payload.textAt ["output_event_id"] = some turnProof.outputEventId := ⟨rfl, rfl, rfl⟩
  have lineage : turnProof.eventLineage = ProofClosureVerifier.expectedLineage turnProof := rfl
  have chained : turnVerifier.checkChain answerEvent.principalId = .ok () := turn_chain
  rw [ProofClosureVerifier.verify,answer_read,ok_bind,proof_read,ok_bind,answer_valid,ok_bind,proof_valid,ok_bind,
    ensure_of scope,ok_bind,ensure_of parent,ok_bind,turn_graph,ok_bind,turn_proof,ok_bind,received,ok_bind,sent,ok_bind,
    received_valid,ok_bind,sent_valid,ok_bind,ensure_of principals,ok_bind,ensure_of namespaces,ok_bind,ensure_of answers,
    ok_bind,turn_route,ok_bind,turn_transition,ok_bind,ensure_of lineage,ok_bind,turn_nodes,ok_bind,turn_receipts,ok_bind,
    turn_join,ok_bind,chained,ok_bind]
  rfl

theorem turn_unforgeable : turnVerifier.Unforgeable { message | message ∈ turnSigned } := by
  intro message signature verifies
  obtain ⟨signed, inside, same⟩ := List.any_eq_true.mp (Bool.and_eq_true_iff.mp verifies).1
  exact of_decide_eq_true same ▸ inside

/-- The received event rests in the closure. -/
theorem received_rests : turnVerifier.RestsOn "evt-answer" "evt-proof" none receivedEvent :=
  ⟨"evt-received", ProofClosureVerifier.stores_of_event received_read, .inr (.inr (.inr ⟨turnProofEvent, turnProof,
    ProofClosureVerifier.stores_of_event proof_read, turnProof_parsed, .head _⟩))⟩

/-- The value whose text is the envelope of an event. -/
def envelopeJson (event : LedgerEvent) : Json := .obj [
  ("schema", .str "zaion.event.signature.v2"),
  ("principal_id", .str event.principalId),
  ("namespace_key", .str event.namespaceKey),
  ("run_id", .ofOption .str event.runId),
  ("event_type", .str event.eventType),
  ("payload", event.payload),
  ("parent_event_id", .ofOption .str event.parentEventId)]

theorem envelopeJson_plain {event : LedgerEvent} (exact : event.payload.exact = true) (depth : event.payload.depth ≤ 126) :
    (envelopeJson event).plain = true := by
  have run := Json.ofOption_str_plain event.runId
  have parent := Json.ofOption_str_plain event.parentEventId
  simp [envelopeJson,Json.plain,Json.exact,Json.exactFields,Json.depth,Json.depthFields,exact,run,parent]
  omega

theorem envelope_type {a b : LedgerEvent} (plain_a : (envelopeJson a).plain = true) (plain_b : (envelopeJson b).plain = true)
    (same : turnVerifier.envelope a = turnVerifier.envelope b) : a.eventType = b.eventType := by
  have texts : turnHost.toText (envelopeJson a) = turnHost.toText (envelopeJson b) := toByteArray_toList_injective same
  have back := turn_reads _ plain_a
  rw [texts,turn_reads _ plain_b] at back
  have values : envelopeJson b = envelopeJson a := Option.some.inj back
  simp only [envelopeJson,Json.obj.injEq,List.cons.injEq,Prod.mk.injEq,Json.str.injEq] at values
  exact values.2.2.2.2.1.2.symm

def noteEvent : LedgerEvent := turnEvent "evt-note" "note" (.str "hello") none

/-- Only envelopes of events have been signed. -/
theorem turnSigned_envelopes : turnSigned = [noteEvent, sentEvent, answerEvent, turnProofEvent].map turnVerifier.envelope := by
  simp only [List.map_cons,List.map_nil,envelope_turn]
  rfl

theorem received_unsigned : turnVerifier.envelope receivedEvent ∉ turnSigned := by
  rw [turnSigned_envelopes,List.mem_map]
  rintro ⟨event, member, same⟩
  have plain : ∀ event ∈ [noteEvent, sentEvent, answerEvent, turnProofEvent], (envelopeJson event).plain = true := by
    simp only [List.forall_mem_cons,List.not_mem_nil,false_imp_iff,implies_true,and_true]
    exact ⟨envelopeJson_plain rfl (by decide), envelopeJson_plain rfl (by decide), envelopeJson_plain rfl (by decide),
      envelopeJson_plain proofPayload_exact (proofPayload_depth ▸ by decide)⟩
  have own : (envelopeJson receivedEvent).plain = true := envelopeJson_plain rfl (by decide)
  have type : event.eventType = "channel.received" := envelope_type (plain event member) own same
  have other : ∀ event ∈ [noteEvent, sentEvent, answerEvent, turnProofEvent], event.eventType ≠ "channel.received" := by
    simp only [List.forall_mem_cons,List.not_mem_nil,false_imp_iff,implies_true,and_true]
    exact ⟨by decide, by decide, by decide, by decide⟩
  exact other event member type

end Zaion.Turn
