import Mathlib.Data.Prod.Lex
import Mathlib.Data.String.Basic
import Zaion.Lib.Canonical
import Zaion.Sample
import Zaion.Turn.Proof

/-! The evidence graph of an answer as a commitment to what went into it: the same inputs, in any order and however
often, are the same graph under the same hash, and no others are. -/
namespace Zaion.Turn

open Lib

def EvidenceNodeKind.rank : EvidenceNodeKind → Nat
  | providerTrace => 0
  | contextPack => 1
  | memoryAtom => 2
  | toolReceipt => 3
  | ledgerEvent => 4
  | answerTraceSpan => 5

def EvidenceEdgeKind.rank : EvidenceEdgeKind → Nat
  | usedBy => 0
  | derivedFrom => 1

deriving instance DecidableEq for EvidenceNode
deriving instance DecidableEq for EvidenceEdge

/-- The derived order: by the fields as they stand. -/
def EvidenceNode.key (n : EvidenceNode) : String ×ₗ Nat ×ₗ String := toLex (n.id, toLex (n.kind.rank, n.evidenceHash))
def EvidenceEdge.key (e : EvidenceEdge) : String ×ₗ String ×ₗ Nat := toLex (e.source, toLex (e.target, e.kind.rank))

theorem node_key_injective : Function.Injective EvidenceNode.key := by
  rintro ⟨id, kind, hash⟩ ⟨id', kind', hash'⟩ same
  obtain ⟨sameId, same⟩ := Prod.mk.inj (toLex.injective same)
  obtain ⟨sameRank, sameHash⟩ := Prod.mk.inj (toLex.injective same)
  have sameKind : kind = kind' := by cases kind <;> cases kind' <;> first | rfl | cases sameRank
  simp only at sameId sameHash
  rw [sameId,sameKind,sameHash]

theorem edge_key_injective : Function.Injective EvidenceEdge.key := by
  rintro ⟨source, target, kind⟩ ⟨source', target', kind'⟩ same
  obtain ⟨sameSource, same⟩ := Prod.mk.inj (toLex.injective same)
  obtain ⟨sameTarget, sameRank⟩ := Prod.mk.inj (toLex.injective same)
  have sameKind : kind = kind' := by cases kind <;> cases kind' <;> first | rfl | cases sameRank
  simp only at sameSource sameTarget
  rw [sameSource,sameTarget,sameKind]

/-- `EvidenceNode::reference`. -/
def EvidenceNode.reference (host : Host) (kind : EvidenceNodeKind) (id : String) : EvidenceNode where
  id := id
  kind := kind
  evidenceHash := stableHashJson host (.obj [("kind", .str kind.name), ("id", .str id)])

/-- `EvidenceSubgraph::new`. -/
def EvidenceSubgraph.new (host : Host) (answerId : String) (nodes : List EvidenceNode) (edges : List EvidenceEdge) :
    EvidenceSubgraph :=
  let graph : EvidenceSubgraph := {
    schema := "zaion.evidence_subgraph.v1"
    answerId := answerId
    nodes := canonical EvidenceNode.key nodes
    edges := canonical EvidenceEdge.key edges
    graphHash := "" }
  { graph with graphHash := graph.expectedHash host }

structure AnswerEvidenceInput where
  responseHash : String
  contextPackId : Option String
  memoryAtomIds : List String
  toolReceiptIds : List String
  sourceLedgerEventIds : List String
  outputLedgerEventId : String
  answerTraceSpanHashes : List String

/-- What the ids of a kind's nodes are marked with. -/
def EvidenceNodeKind.tag : EvidenceNodeKind → String
  | providerTrace => "provider-response"
  | contextPack => "context-pack"
  | memoryAtom => "memory-atom"
  | toolReceipt => "tool-receipt"
  | ledgerEvent => "ledger-event"
  | answerTraceSpan => "answer-span"

def nodeId (kind : EvidenceNodeKind) (id : String) : String := kind.tag ++ (":" ++ id)

/-- The response and the spans are known by their own hashes, the rest by a hash of kind and id. -/
def nodeOf (host : Host) : EvidenceNodeKind × String → EvidenceNode
  | (.providerTrace, hash) => ⟨nodeId .providerTrace hash, .providerTrace, hash⟩
  | (.answerTraceSpan, hash) => ⟨nodeId .answerTraceSpan hash, .answerTraceSpan, hash⟩
  | (kind, id) => .reference host kind (nodeId kind id)

namespace AnswerEvidenceInput

variable (input : AnswerEvidenceInput)

def responseNodeId : String := nodeId .providerTrace input.responseHash

/-- What `add_input_reference` is called with. -/
def used : List (EvidenceNodeKind × String) :=
  (input.contextPackId.toList.map (.contextPack, ·) : List (EvidenceNodeKind × String)) ++
    (input.memoryAtomIds.map (.memoryAtom, ·) : List (EvidenceNodeKind × String)) ++
    (input.toolReceiptIds.map (.toolReceipt, ·) : List (EvidenceNodeKind × String)) ++
    (input.sourceLedgerEventIds.map (.ledgerEvent, ·) : List (EvidenceNodeKind × String))

/-- The output event, if there is one, and the spans. -/
def derived : List (EvidenceNodeKind × String) :=
  (if input.outputLedgerEventId = "" then [] else [(.ledgerEvent, input.outputLedgerEventId)] : List (EvidenceNodeKind × String)) ++
    (input.answerTraceSpanHashes.map (.answerTraceSpan, ·) : List (EvidenceNodeKind × String))

def nodes (host : Host) : List EvidenceNode :=
  ((.providerTrace, input.responseHash) :: (input.used ++ input.derived)).map (nodeOf host)

def edge (kind : EvidenceEdgeKind) (r : EvidenceNodeKind × String) : EvidenceEdge :=
  ⟨nodeId r.1 r.2, input.responseNodeId, kind⟩

def edges : List EvidenceEdge := input.used.map (input.edge .usedBy) ++ input.derived.map (input.edge .derivedFrom)

end AnswerEvidenceInput

/-- `build_answer_evidence_subgraph`. -/
def buildAnswerEvidenceSubgraph (host : Host) (input : AnswerEvidenceInput) : EvidenceSubgraph :=
  .new host input.responseNodeId (input.nodes host) input.edges

/-- The same inputs, order and repetition aside. -/
structure SameInputs (a b : AnswerEvidenceInput) : Prop where
  responseHash : a.responseHash = b.responseHash
  contextPackId : a.contextPackId = b.contextPackId
  memoryAtomIds : ∀ id, id ∈ a.memoryAtomIds ↔ id ∈ b.memoryAtomIds
  toolReceiptIds : ∀ id, id ∈ a.toolReceiptIds ↔ id ∈ b.toolReceiptIds
  sourceLedgerEventIds : ∀ id, id ∈ a.sourceLedgerEventIds ↔ id ∈ b.sourceLedgerEventIds
  outputLedgerEventId : a.outputLedgerEventId = b.outputLedgerEventId
  answerTraceSpanHashes : ∀ hash, hash ∈ a.answerTraceSpanHashes ↔ hash ∈ b.answerTraceSpanHashes

/-- The ends of the edges are nodes, and a node is known by its id. -/
structure WellFormed (g : EvidenceSubgraph) : Prop where
  ends : ∀ e ∈ g.edges, e.source ∈ g.nodes.map EvidenceNode.id ∧ e.target ∈ g.nodes.map EvidenceNode.id
  distinct : (g.nodes.map EvidenceNode.id).Nodup

section

variable {host : Host} {kind kind' : EvidenceNodeKind} {x x' : String} {r r' : EvidenceNodeKind × String}

theorem tag_head (kind : EvidenceNodeKind) : ∃ rest, kind.tag.toList = "pcmtla".toList.getD kind.rank ' ' :: rest := by
  cases kind <;> exact ⟨_, rfl⟩

/-- An id tells the kind of its node and what it is of. -/
theorem nodeId_injective (same : nodeId r.1 r.2 = nodeId r'.1 r'.2) : r = r' := by
  obtain ⟨kind, x⟩ := r
  obtain ⟨kind', x'⟩ := r'
  have letters := congrArg String.toList same
  simp only [nodeId,String.toList_append] at letters
  have sameKind : kind = kind' := by
    obtain ⟨rest, head⟩ := tag_head kind
    obtain ⟨rest', head'⟩ := tag_head kind'
    rw [head,head'] at letters
    have first := (List.cons.inj letters).1
    cases kind <;> cases kind' <;> first | rfl | exact absurd first (by decide)
  subst sameKind
  have sameId := List.append_cancel_left (List.append_cancel_left letters)
  rw [String.toList_inj.mp sameId]

@[simp] theorem nodeOf_id : (nodeOf host r).id = nodeId r.1 r.2 := by
  obtain ⟨kind, x⟩ := r
  cases kind <;> rfl

end

section

variable {host : Host} {a b : AnswerEvidenceInput} {input : AnswerEvidenceInput} {r : EvidenceNodeKind × String} {id : String}

theorem edge_injective {kind kind' : EvidenceEdgeKind} {r' : EvidenceNodeKind × String}
    (same : input.edge kind r = input.edge kind' r') : kind = kind' ∧ r = r' := by
  injection same with source _ kinds
  exact ⟨kinds, nodeId_injective source⟩

/-- The edges tell what was used. -/
theorem usedBy_mem_edges : input.edge .usedBy r ∈ input.edges ↔ r ∈ input.used := by
  simp only [AnswerEvidenceInput.edges,List.mem_append,List.mem_map]
  constructor
  · rintro (⟨r', member, same⟩ | ⟨r', _, same⟩)
    · rwa [← (edge_injective same).2]
    · exact absurd (edge_injective same).1 (by decide)
  · exact fun member => .inl ⟨r, member, rfl⟩

/-- And what was derived. -/
theorem derivedFrom_mem_edges : input.edge .derivedFrom r ∈ input.edges ↔ r ∈ input.derived := by
  simp only [AnswerEvidenceInput.edges,List.mem_append,List.mem_map]
  constructor
  · rintro (⟨r', _, same⟩ | ⟨r', member, same⟩)
    · exact absurd (edge_injective same).1 (by decide)
    · rwa [← (edge_injective same).2]
  · exact fun member => .inr ⟨r, member, rfl⟩

theorem contextPack_mem_used : (.contextPack, id) ∈ input.used ↔ input.contextPackId = some id := by
  simp [AnswerEvidenceInput.used,eq_comm]

theorem memoryAtom_mem_used : (.memoryAtom, id) ∈ input.used ↔ id ∈ input.memoryAtomIds := by
  simp [AnswerEvidenceInput.used]

theorem toolReceipt_mem_used : (.toolReceipt, id) ∈ input.used ↔ id ∈ input.toolReceiptIds := by
  simp [AnswerEvidenceInput.used]

theorem ledgerEvent_mem_used : (.ledgerEvent, id) ∈ input.used ↔ id ∈ input.sourceLedgerEventIds := by
  simp [AnswerEvidenceInput.used]

theorem ledgerEvent_mem_derived (sent : input.outputLedgerEventId ≠ "") :
    (.ledgerEvent, id) ∈ input.derived ↔ id = input.outputLedgerEventId := by
  simp [AnswerEvidenceInput.derived,sent]

theorem answerTraceSpan_mem_derived : (.answerTraceSpan, id) ∈ input.derived ↔ id ∈ input.answerTraceSpanHashes := by
  by_cases sent : input.outputLedgerEventId = "" <;> simp [AnswerEvidenceInput.derived,sent]

/-- Inputs are the same when the graphs draw on the same response, and have the same used by it and derived from it. -/
theorem sameInputs_iff (sentA : a.outputLedgerEventId ≠ "") (sentB : b.outputLedgerEventId ≠ "") :
    SameInputs a b ↔ a.responseHash = b.responseHash ∧ (∀ r, r ∈ a.used ↔ r ∈ b.used) ∧ ∀ r, r ∈ a.derived ↔ r ∈ b.derived := by
  constructor
  · rintro ⟨response, pack, atoms, receipts, events, output, spans⟩
    refine ⟨response, fun ⟨kind, id⟩ => ?_, fun ⟨kind, id⟩ => ?_⟩
    · simp [AnswerEvidenceInput.used,pack,atoms,receipts,events]
    · simp [AnswerEvidenceInput.derived,output,spans]
  · rintro ⟨response, used, derived⟩
    exact {
      responseHash := response
      contextPackId := Option.ext fun id => by rw [← contextPack_mem_used,← contextPack_mem_used,used]
      memoryAtomIds := fun id => by rw [← memoryAtom_mem_used,← memoryAtom_mem_used,used]
      toolReceiptIds := fun id => by rw [← toolReceipt_mem_used,← toolReceipt_mem_used,used]
      sourceLedgerEventIds := fun id => by rw [← ledgerEvent_mem_used,← ledgerEvent_mem_used,used]
      outputLedgerEventId := (ledgerEvent_mem_derived sentB).mp ((derived _).mp ((ledgerEvent_mem_derived sentA).mpr rfl))
      answerTraceSpanHashes := fun id => by rw [← answerTraceSpan_mem_derived,← answerTraceSpan_mem_derived,derived] }

/-- What a graph is of its inputs. -/
theorem build_eq_iff : buildAnswerEvidenceSubgraph host a = buildAnswerEvidenceSubgraph host b ↔
    a.responseHash = b.responseHash ∧ (∀ r, r ∈ a.used ↔ r ∈ b.used) ∧ ∀ r, r ∈ a.derived ↔ r ∈ b.derived := by
  constructor
  · intro same
    have answer : a.responseNodeId = b.responseNodeId := congrArg EvidenceSubgraph.answerId same
    have response : a.responseHash = b.responseHash :=
      (Prod.mk.inj (@nodeId_injective (.providerTrace, a.responseHash) (.providerTrace, b.responseHash) answer)).2
    have edges : ∀ e, e ∈ a.edges ↔ e ∈ b.edges :=
      (canonical_eq_iff edge_key_injective).mp (congrArg EvidenceSubgraph.edges same)
    have edge (kind : EvidenceEdgeKind) (r : EvidenceNodeKind × String) : a.edge kind r = b.edge kind r := by
      rw [AnswerEvidenceInput.edge,AnswerEvidenceInput.edge,answer]
    refine ⟨response, fun r => ?_, fun r => ?_⟩
    · rw [← usedBy_mem_edges,edges,edge,usedBy_mem_edges]
    · rw [← derivedFrom_mem_edges,edges,edge,derivedFrom_mem_edges]
  · rintro ⟨response, used, derived⟩
    have answer : a.responseNodeId = b.responseNodeId := congrArg (nodeId .providerTrace) response
    have nodes : canonical EvidenceNode.key (a.nodes host) = canonical EvidenceNode.key (b.nodes host) :=
      (canonical_eq_iff node_key_injective).mpr fun n => by
        simp only [AnswerEvidenceInput.nodes,List.mem_map,List.mem_cons,List.mem_append,response,used,derived]
    have edge (kind : EvidenceEdgeKind) : a.edge kind = b.edge kind :=
      funext fun r => by rw [AnswerEvidenceInput.edge,AnswerEvidenceInput.edge,answer]
    have edges : canonical EvidenceEdge.key a.edges = canonical EvidenceEdge.key b.edges :=
      (canonical_eq_iff edge_key_injective).mpr fun e => by
        simp only [AnswerEvidenceInput.edges,List.mem_append,List.mem_map,edge,used,derived]
    simp only [buildAnswerEvidenceSubgraph,EvidenceSubgraph.new,answer,nodes,edges]

theorem wellFormed_build (host : Host) (input : AnswerEvidenceInput) : WellFormed (buildAnswerEvidenceSubgraph host input) := by
  have held (r : EvidenceNodeKind × String)
      (among : r ∈ (EvidenceNodeKind.providerTrace, input.responseHash) :: (input.used ++ input.derived)) :
      nodeId r.1 r.2 ∈ (canonical EvidenceNode.key (input.nodes host)).map EvidenceNode.id :=
    List.mem_map.mpr ⟨nodeOf host r, mem_canonical.mpr (List.mem_map_of_mem among), nodeOf_id⟩
  constructor
  · intro e member
    have listed : e ∈ input.edges := mem_canonical.mp member
    obtain ⟨r, kind, among, rfl⟩ : ∃ r kind, r ∈ input.used ++ input.derived ∧ input.edge kind r = e := by
      rcases List.mem_append.mp listed with use | derivation
      · obtain ⟨r, among, same⟩ := List.mem_map.mp use
        exact ⟨r, .usedBy, List.mem_append_left _ among, same⟩
      · obtain ⟨r, among, same⟩ := List.mem_map.mp derivation
        exact ⟨r, .derivedFrom, List.mem_append_right _ among, same⟩
    exact ⟨held r (List.mem_cons_of_mem _ among), held _ List.mem_cons_self⟩
  · refine List.Nodup.map_on (fun n member n' member' same => ?_) (canonical_nodup node_key_injective _)
    obtain ⟨r, _, rfl⟩ := List.mem_map.mp (mem_canonical.mp member)
    obtain ⟨r', _, rfl⟩ := List.mem_map.mp (mem_canonical.mp member')
    rw [nodeOf_id,nodeOf_id] at same
    rw [nodeId_injective same]

end

/-! The hash -/

section

variable {host : Host}

theorem node_toJson_injective : Function.Injective EvidenceNode.toJson := by
  rintro ⟨id, kind, hash⟩ ⟨id', kind', hash'⟩ same
  simp only [EvidenceNode.toJson,Json.obj.injEq,List.cons.injEq,Prod.mk.injEq,Json.str.injEq,true_and,and_true] at same
  obtain ⟨sameId, sameName, sameHash⟩ := same
  have sameKind : kind = kind' := by cases kind <;> cases kind' <;> first | rfl | exact absurd sameName (by decide)
  rw [sameId,sameKind,sameHash]

theorem edge_toJson_injective : Function.Injective EvidenceEdge.toJson := by
  rintro ⟨source, target, kind⟩ ⟨source', target', kind'⟩ same
  simp only [EvidenceEdge.toJson,Json.obj.injEq,List.cons.injEq,Prod.mk.injEq,Json.str.injEq,true_and,and_true] at same
  obtain ⟨sameSource, sameTarget, sameName⟩ := same
  have sameKind : kind = kind' := by cases kind <;> cases kind' <;> first | rfl | exact absurd sameName (by decide)
  rw [sameSource,sameTarget,sameKind]

theorem node_toJson_flat (n : EvidenceNode) : n.toJson.exact = true ∧ n.toJson.depth ≤ 1 := by
  simp [EvidenceNode.toJson,Json.exact,Json.exactFields,Json.depth,Json.depthFields]

theorem edge_toJson_flat (e : EvidenceEdge) : e.toJson.exact = true ∧ e.toJson.depth ≤ 1 := by
  simp [EvidenceEdge.toJson,Json.exact,Json.exactFields,Json.depth,Json.depthFields]

/-- What the hash of a graph is taken of. -/
def EvidenceSubgraph.basis (g : EvidenceSubgraph) : Json := .obj [
  ("schema", .str g.schema),
  ("answer_id", .str g.answerId),
  ("nodes", .arr (g.nodes.map EvidenceNode.toJson)),
  ("edges", .arr (g.edges.map EvidenceEdge.toJson))]

theorem graphBasis_plain (g : EvidenceSubgraph) : g.basis.plain = true := by
  have nodesExact : Json.exactItems (g.nodes.map EvidenceNode.toJson) = true :=
    Json.exactItems_iff.mpr (List.forall_mem_map.mpr fun n _ => (node_toJson_flat n).1)
  have edgesExact : Json.exactItems (g.edges.map EvidenceEdge.toJson) = true :=
    Json.exactItems_iff.mpr (List.forall_mem_map.mpr fun e _ => (edge_toJson_flat e).1)
  have nodesDepth : Json.depthItems (g.nodes.map EvidenceNode.toJson) ≤ 1 :=
    Json.depthItems_le_iff.mpr (List.forall_mem_map.mpr fun n _ => (node_toJson_flat n).2)
  have edgesDepth : Json.depthItems (g.edges.map EvidenceEdge.toJson) ≤ 1 :=
    Json.depthItems_le_iff.mpr (List.forall_mem_map.mpr fun e _ => (edge_toJson_flat e).2)
  simp only [EvidenceSubgraph.basis,Json.plain,Json.exact,Json.exactFields,Json.depth,Json.depthFields,
    nodesExact,edgesExact]
  simp
  omega

theorem graphBasis_eq {g g' : EvidenceSubgraph} (same : g.basis = g'.basis) :
    g.answerId = g'.answerId ∧ g.nodes = g'.nodes ∧ g.edges = g'.edges := by
  simp only [EvidenceSubgraph.basis,Json.obj.injEq,List.cons.injEq,Prod.mk.injEq,Json.str.injEq,Json.arr.injEq,true_and,
    and_true] at same
  exact ⟨same.2.1, List.map_injective_iff.mpr node_toJson_injective same.2.2.1,
    List.map_injective_iff.mpr edge_toJson_injective same.2.2.2⟩

theorem expectedHash_injective (free : host.CollisionFree) (reads : host.ReadsBack) {g g' : EvidenceSubgraph}
    (same : g.expectedHash host = g'.expectedHash host) : g.basis = g'.basis := by
  have text : host.toText g.basis = host.toText g'.basis := toByteArray_toList_injective (free same)
  have read := reads g.basis (graphBasis_plain g)
  rw [text,reads g'.basis (graphBasis_plain g')] at read
  exact (Option.some.inj read).symm

/-- A built graph is what its hash says it is. -/
theorem build_eq_iff_hash (free : host.CollisionFree) (reads : host.ReadsBack) {a b : AnswerEvidenceInput} :
    buildAnswerEvidenceSubgraph host a = buildAnswerEvidenceSubgraph host b ↔
      (buildAnswerEvidenceSubgraph host a).graphHash = (buildAnswerEvidenceSubgraph host b).graphHash := by
  refine ⟨congrArg EvidenceSubgraph.graphHash, fun hash => ?_⟩
  obtain ⟨answer, nodes, edges⟩ := graphBasis_eq (expectedHash_injective free reads hash)
  exact (EvidenceSubgraph.mk.injEq ..).mpr ⟨rfl, answer, nodes, edges, hash⟩

/-- One event is a source and the output, and an atom is listed twice in one of the inputs. -/
def answerInput (atoms : List String) : AnswerEvidenceInput where
  responseHash := "r"
  contextPackId := some "ctx-1"
  memoryAtomIds := atoms
  toolReceiptIds := []
  sourceLedgerEventIds := ["e"]
  outputLedgerEventId := "e"
  answerTraceSpanHashes := ["s"]

end

end Zaion.Turn
