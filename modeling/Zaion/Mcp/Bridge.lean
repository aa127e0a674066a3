import Mathlib.Data.List.Nodup
import Mathlib.Logic.Function.Basic
import Zaion.Host
import Zaion.Lib.Hex
import Zaion.Lib.Steps
import Zaion.Sample

/-! Concurrent dispatches to one MCP subprocess. A dispatch writes its request line, reads the
next line of the subprocess's output, whoever it is for, and records the provenance of the two:
three steps that those of other dispatches and of the server come between. -/
namespace Zaion.Mcp

open Zaion.Lib

structure JsonRpcRequest where
  jsonrpc : String
  id : Option Json
  method : String
  params : Option Json

structure JsonRpcError where
  code : Int
  message : String
  data : Option Json
  deriving DecidableEq

structure JsonRpcResponse where
  jsonrpc : String
  id : Option Json
  result : Option Json
  error : Option JsonRpcError
  deriving DecidableEq

/-- An `Option` is written as `null` when it is `None`. -/
def valueOf (v : Option Json) : Json := Json.ofOption id v

/-- `Option<Value>` reads a missing field and `null` as `None`. -/
def optional (key : String) (fields : List (String × Json)) : Option Json :=
  match Json.lookup key fields with
  | some .null => none
  | found => found

def parseI32 : Json → Option Int
  | .num (.posInt n) => if n < 2147483648 then some n else none
  | .num (.negInt i) => if -2147483648 ≤ i then some i else none
  | _ => none

def parseError (v : Json) : Option JsonRpcError := do
  let fields ← v.asObject
  let code ← (Json.lookup "code" fields).bind parseI32
  let message ← (Json.lookup "message" fields).bind Json.asStr
  some ⟨code, message, optional "data" fields⟩

/-- `serde_json::from_str` of a line that holds an object; a field of the struct is there once
at most, other fields are skipped. -/
def parseResponse (fields : List (String × Json)) : Option JsonRpcResponse :=
  if ["jsonrpc", "id", "result", "error"].any (fun key => 1 < (fields.map Prod.fst).count key) then none
  else match (Json.lookup "jsonrpc" fields).bind Json.asStr with
    | none => none
    | some jsonrpc => match optional "error" fields with
      | none => some ⟨jsonrpc, optional "id" fields, optional "result" fields, none⟩
      | some v =>
        (parseError v).map (fun error => ⟨jsonrpc, optional "id" fields, optional "result" fields, some error⟩)

structure McpProvenance where
  callId : String
  method : String
  timestamp : Nat
  principalId : String
  paramsHash : String
  resultHash : String
  ed25519Signature : String
  schemaVersion : Nat
  deriving DecidableEq

section

variable (host : Host)

/-- The digest that is signed. -/
def McpProvenance.canonicalBytes (record : McpProvenance) : List UInt8 :=
  (hexDecode (host.sha256Hex (Host.utf8 record.method ++ [0x1f] ++ Host.utf8 record.paramsHash ++ [0x1f] ++
    Host.utf8 record.resultHash ++ [0x1f] ++ Host.littleEndian 8 record.timestamp))).getD []

/-- The hash of the text of an optional value. -/
def hashOf (v : Option Json) : String := host.sha256Hex (Host.utf8 (host.toText (valueOf v)))

def recordProvenance (key : Keypair) (callId method : String) (now : Nat) (paramsHash resultHash : String) : McpProvenance :=
  let stub : McpProvenance := ⟨callId, method, now, host.principalOf key.publicKey, paramsHash, resultHash, "", 2⟩
  { stub with ed25519Signature := hexEncode (host.sign key (stub.canonicalBytes host)) }

end

inductive Fault where
  | write
  | read
  | parse
  deriving DecidableEq

inductive Phase where
  | start
  | waiting
  | got (response : JsonRpcResponse)
  | returned (response : JsonRpcResponse) (record : McpProvenance)
  | failed (fault : Fault)
  deriving DecidableEq

/-- A line of the subprocess's output: the answer to a call, or a notification. -/
inductive Line (ι : Type) where
  | answer (call : ι) (fields : List (String × Json))
  | notification (fields : List (String × Json))

def Line.fields {ι : Type} : Line ι → List (String × Json)
  | .answer _ fields => fields
  | .notification fields => fields

/-- The calls, the requests the server has not answered, the lines nobody has read, what the
server answered to each call, and the ledger. -/
structure State (ι : Type) where
  phase : ι → Phase
  unanswered : List ι
  pipe : List (Line ι)
  answered : ι → Option (List (String × Json))
  ledger : List McpProvenance

def State.start (ι : Type) : State ι := ⟨fun _ => .start, [], [], fun _ => none, []⟩

inductive Act (ι : Type) where
  | write (i : ι) (ok : Bool)
  | answer (i : ι) (fields : List (String × Json))
  | notify (fields : List (String × Json))
  | read (i : ι)
  | readFails (i : ι)
  | record (i : ι) (callId : String) (now : Nat)

section

variable {ι : Type} [DecidableEq ι] (host : Host) (key : Keypair) (calls : ι → JsonRpcRequest)

/-- The server answers with the id of the request, once; a notification has no id. -/
def step (s : State ι) : Act ι → Option (State ι)
  | .write i ok =>
    if s.phase i = .start then
      if ok then some { s with phase := Function.update s.phase i .waiting, unanswered := s.unanswered ++ [i] }
      else some { s with phase := Function.update s.phase i (.failed .write) }
    else none
  | .answer i fields =>
    if i ∈ s.unanswered ∧ Json.lookup "id" fields = some (valueOf (calls i).id) then
      some { s with
        unanswered := s.unanswered.erase i
        pipe := s.pipe ++ [.answer i fields]
        answered := Function.update s.answered i (some fields) }
    else none
  | .notify fields =>
    if Json.lookup "id" fields = none then some { s with pipe := s.pipe ++ [.notification fields] } else none
  | .read i => match s.phase i, s.pipe with
    | .waiting, line :: rest => match parseResponse line.fields with
      | some response => some { s with phase := Function.update s.phase i (.got response), pipe := rest }
      | none => some { s with phase := Function.update s.phase i (.failed .parse), pipe := rest }
    | _, _ => none
  | .readFails i =>
    if s.phase i = .waiting then some { s with phase := Function.update s.phase i (.failed .read) } else none
  | .record i callId now => match s.phase i with
    | .got response =>
      let record := recordProvenance host key callId (calls i).method now (hashOf host (calls i).params)
        (hashOf host response.result)
      some { s with phase := Function.update s.phase i (.returned response record), ledger := s.ledger ++ [record] }
    | _ => none

/-- The response is the server's answer to the request of the call. -/
def Answers (s : State ι) (i : ι) (response : JsonRpcResponse) : Prop :=
  valueOf response.id = valueOf (calls i).id ∧ ∃ fields, s.answered i = some fields ∧ parseResponse fields = some response

/-- Every call that returned has its own response, and a record of it. -/
def Matched (s : State ι) : Prop :=
  ∀ i response record, s.phase i = .returned response record → Answers calls s i response ∧
    record.paramsHash = hashOf host (calls i).params ∧ record.resultHash = hashOf host response.result ∧
    record.method = (calls i).method ∧ record ∈ s.ledger

/-- A call reads when the oldest line that nobody has read is the answer to it. -/
def InTurn (s : State ι) : Act ι → Prop
  | .read i => ∃ fields rest, s.pipe = .answer i fields :: rest
  | _ => True

/-- What is known of calls and lines when every read is in turn. -/
structure Inv (s : State ι) : Prop where
  once : s.unanswered.Nodup
  waits : ∀ i ∈ s.unanswered, s.answered i = none
  start : ∀ i, s.phase i = .start → i ∉ s.unanswered ∧ s.answered i = none
  ids : ∀ i fields, s.answered i = some fields → Json.lookup "id" fields = some (valueOf (calls i).id)
  pipe : ∀ i fields, .answer i fields ∈ s.pipe → s.answered i = some fields
  got : ∀ i response, s.phase i = .got response → Answers calls s i response
  matched : Matched host calls s

end

section

variable {ι : Type} [DecidableEq ι] {host : Host} {key : Keypair} {calls : ι → JsonRpcRequest} {s s' : State ι} {i : ι}
  {fields : List (String × Json)} {response : JsonRpcResponse}

theorem parseResponse_read (parsed : parseResponse fields = some response) : response.id = optional "id" fields := by
  unfold parseResponse at parsed
  split at parsed
  · cases parsed
  · split at parsed
    · cases parsed
    · split at parsed
      · cases parsed
        rfl
      · obtain ⟨error, _, rfl⟩ := Option.map_eq_some_iff.mp parsed
        rfl

theorem parseResponse_id (parsed : parseResponse fields = some response) {v : Json}
    (found : Json.lookup "id" fields = some v) : valueOf response.id = v := by
  rw [parseResponse_read parsed,optional,found]
  cases v <;> rfl

theorem parseResponse_no_id (parsed : parseResponse fields = some response)
    (missing : Json.lookup "id" fields = none) : valueOf response.id = .null := by
  rw [parseResponse_read parsed,optional,missing]
  rfl

omit [DecidableEq ι] in
theorem Answers.mono (answers : Answers calls s i response)
    (kept : ∀ fields, s.answered i = some fields → s'.answered i = some fields) : Answers calls s' i response := by
  obtain ⟨id_, fields, answered, parsed⟩ := answers
  exact ⟨id_, fields, kept fields answered, parsed⟩

theorem update_phase {phase : ι → Phase} {i j : ι} {x y : Phase} (there : Function.update phase i x j = y) :
    (j = i ∧ x = y) ∨ (j ≠ i ∧ phase j = y) := by
  by_cases same : j = i
  · subst same
    exact .inl ⟨rfl, by simpa using there⟩
  · exact .inr ⟨same, by simpa [same] using there⟩

/-- Only the phase of one call changes, to one that says nothing, and lines may be taken. -/
theorem Inv.quiet {phase : Phase} {pipe : List (Line ι)} (inv : Inv host calls s) (begun : phase ≠ .start)
    (unread : ∀ line ∈ pipe, line ∈ s.pipe) (got : ∀ response, phase = .got response → Answers calls s i response)
    (unreturned : ∀ response record, phase ≠ .returned response record) :
    Inv host calls { s with phase := Function.update s.phase i phase, pipe := pipe } := by
  refine ⟨inv.once, inv.waits, ?_, inv.ids, fun j fields member => inv.pipe j fields (unread _ member), ?_, ?_⟩
  · intro j there
    rcases update_phase there with ⟨_, start⟩ | ⟨_, start⟩
    · exact absurd start begun
    · exact inv.start j start
  · intro j response there
    rcases update_phase there with ⟨rfl, here⟩ | ⟨_, there⟩
    · exact (got response here).mono (fun _ => id)
    · exact (inv.got j response there).mono (fun _ => id)
  · intro j response record there
    rcases update_phase there with ⟨_, here⟩ | ⟨_, there⟩
    · exact absurd here (unreturned response record)
    · obtain ⟨answers, facts⟩ := inv.matched j response record there
      exact ⟨answers.mono (fun _ => id), facts⟩

theorem Inv.write (inv : Inv host calls s) (idle : s.phase i = .start) :
    Inv host calls { s with phase := Function.update s.phase i .waiting, unanswered := s.unanswered ++ [i] } := by
  have quiet := @Inv.quiet _ _ _ _ _ i .waiting _ inv nofun (fun _ => id) nofun (fun _ _ returned => nomatch returned)
  obtain ⟨new, unknown⟩ := inv.start i idle
  refine ⟨?_, ?_, ?_, quiet.ids, quiet.pipe, fun j r there => (quiet.got j r there).mono (fun _ => id), ?_⟩
  · refine List.nodup_append.mpr ⟨inv.once, List.nodup_singleton i, ?_⟩
    rintro j member k single rfl
    exact new (List.mem_singleton.mp single ▸ member)
  · intro j member
    rcases List.mem_append.mp member with old | single
    · exact inv.waits j old
    · exact List.mem_singleton.mp single ▸ unknown
  · intro j there
    obtain ⟨out, none_⟩ := quiet.start j there
    refine ⟨?_, none_⟩
    intro member
    rcases List.mem_append.mp member with old | single
    · exact out old
    · obtain rfl := List.mem_singleton.mp single
      simp at there
  · intro j response record there
    obtain ⟨answers, facts⟩ := quiet.matched j response record there
    exact ⟨answers.mono (fun _ => id), facts⟩

theorem Inv.answer (inv : Inv host calls s) (waits : i ∈ s.unanswered)
    (id_ : Json.lookup "id" fields = some (valueOf (calls i).id)) :
    Inv host calls { s with
      unanswered := s.unanswered.erase i
      pipe := s.pipe ++ [.answer i fields]
      answered := Function.update s.answered i (some fields) } := by
  have unknown := inv.waits i waits
  have kept : ∀ j old, s.answered j = some old → Function.update s.answered i (some fields) j = some old := by
    intro j old there
    have other : j ≠ i := by
      rintro rfl
      rw [unknown] at there
      cases there
    simpa [other] using there
  refine ⟨inv.once.erase i, ?_, ?_, ?_, ?_, fun j r there => (inv.got j r there).mono (kept j), ?_⟩
  · intro j member
    have other : j ≠ i := fun same => (inv.once.not_mem_erase (same ▸ member))
    simpa [other] using inv.waits j (List.mem_of_mem_erase member)
  · intro j there
    obtain ⟨out, none_⟩ := inv.start j there
    have other : j ≠ i := fun same => out (same ▸ waits)
    exact ⟨fun member => out (List.mem_of_mem_erase member), by simpa [other] using none_⟩
  · intro j old there
    by_cases same : j = i
    · subst same
      obtain rfl : fields = old := by simpa using there
      exact id_
    · exact inv.ids j old (by simpa [same] using there)
  · intro j old member
    rcases List.mem_append.mp member with before | last
    · exact kept j old (inv.pipe j old before)
    · obtain ⟨rfl, rfl⟩ : j = i ∧ old = fields := by simpa using last
      simp
  · intro j response record there
    obtain ⟨answers, facts⟩ := inv.matched j response record there
    exact ⟨answers.mono (kept j), facts⟩

theorem Inv.record {callId : String} {now : Nat} (inv : Inv host calls s) (there : s.phase i = .got response)
    {record : McpProvenance} (made : record = recordProvenance host key callId (calls i).method now
      (hashOf host (calls i).params) (hashOf host response.result)) :
    Inv host calls { s with phase := Function.update s.phase i (.returned response record), ledger := s.ledger ++ [record] } := by
  have answers := inv.got i response there
  refine ⟨inv.once, inv.waits, ?_, inv.ids, inv.pipe, ?_, ?_⟩
  · intro j there
    rcases update_phase there with ⟨_, start⟩ | ⟨_, start⟩
    · cases start
    · exact inv.start j start
  · intro j other there
    rcases update_phase there with ⟨_, here⟩ | ⟨_, there⟩
    · cases here
    · exact (inv.got j other there).mono (fun _ => id)
  · intro j other record' there
    rcases update_phase there with ⟨rfl, here⟩ | ⟨_, there⟩
    · cases here
      subst made
      exact ⟨answers.mono (fun _ => id), rfl, rfl, rfl, by simp⟩
    · obtain ⟨answers', params, result, method, member⟩ := inv.matched j other record' there
      exact ⟨answers'.mono (fun _ => id), params, result, method, List.mem_append_left _ member⟩

theorem Inv.step {act : Act ι} (inv : Inv host calls s) (turn : InTurn s act)
    (taken : step host key calls s act = some s') : Inv host calls s' := by
  cases act with
  | write i ok =>
    rw [Mcp.step] at taken
    split at taken
    · rename_i idle
      cases ok <;> cases taken
      · exact inv.quiet nofun (fun _ => id) nofun (fun _ _ returned => nomatch returned)
      · exact inv.write idle
    · cases taken
  | answer i fields =>
    rw [Mcp.step] at taken
    split at taken <;> cases taken
    rename_i allowed
    exact inv.answer allowed.1 allowed.2
  | notify fields =>
    rw [Mcp.step] at taken
    split at taken <;> cases taken
    refine ⟨inv.once, inv.waits, inv.start, inv.ids, ?_, inv.got, inv.matched⟩
    intro j old member
    rcases List.mem_append.mp member with before | last
    · exact inv.pipe j old before
    · cases List.mem_singleton.mp last
  | read i =>
    obtain ⟨fields, rest, head⟩ := turn
    have answered := inv.pipe i fields (by rw [head]; exact List.mem_cons_self)
    have fewer : ∀ line ∈ rest, line ∈ s.pipe := fun line member => by rw [head]; exact List.mem_cons_of_mem _ member
    rw [Mcp.step,head] at taken
    split at taken
    · rename_i line rest' _ same
      obtain ⟨rfl, rfl⟩ := List.cons.inj same
      cases parsed : parseResponse fields with
      | none =>
        simp only [Line.fields,parsed] at taken
        cases taken
        exact inv.quiet nofun fewer nofun (fun _ _ returned => nomatch returned)
      | some response =>
        simp only [Line.fields,parsed] at taken
        cases taken
        refine inv.quiet nofun fewer ?_ (fun _ _ returned => nomatch returned)
        rintro _ ⟨⟩
        exact ⟨parseResponse_id parsed (inv.ids i fields answered), fields, answered, parsed⟩
    · cases taken
  | readFails i =>
    rw [Mcp.step] at taken
    split at taken <;> cases taken
    exact inv.quiet nofun (fun _ => id) nofun (fun _ _ returned => nomatch returned)
  | record i callId now =>
    rw [Mcp.step] at taken
    split at taken <;> cases taken
    rename_i response got
    exact inv.record got rfl

omit [DecidableEq ι] in
theorem start_inv : Inv host calls (State.start ι) :=
  ⟨List.nodup_nil, nofun, fun _ _ => ⟨nofun, rfl⟩, nofun, nofun, nofun, fun _ _ _ returned => nomatch returned⟩

/-- The lines carry the ids of what they are. -/
def Labelled (calls : ι → JsonRpcRequest) (pipe : List (Line ι)) : Prop := ∀ line ∈ pipe, match line with
  | .answer i fields => Json.lookup "id" fields = some (valueOf (calls i).id)
  | .notification fields => Json.lookup "id" fields = none

theorem labelled_step {act : Act ι} (labelled : Labelled calls s.pipe) (taken : step host key calls s act = some s') :
    Labelled calls s'.pipe := by
  have more {line : Line ι} (last : Labelled calls [line]) : Labelled calls (s.pipe ++ [line]) := by
    intro other member
    rcases List.mem_append.mp member with before | here
    · exact labelled other before
    · exact last other here
  cases act with
  | write i ok =>
    rw [Mcp.step] at taken
    split at taken
    · cases ok <;> cases taken <;> exact labelled
    · cases taken
  | answer i fields =>
    rw [Mcp.step] at taken
    split at taken <;> cases taken
    rename_i allowed
    exact more (by simpa [Labelled] using allowed.2)
  | notify fields =>
    rw [Mcp.step] at taken
    split at taken <;> cases taken
    rename_i allowed
    exact more (by simpa [Labelled] using allowed)
  | read i =>
    rw [Mcp.step] at taken
    split at taken
    · rename_i line rest _ head
      have fewer : Labelled calls rest := fun other member => labelled other (by rw [head]; exact List.mem_cons_of_mem _ member)
      split at taken <;> cases taken <;> exact fewer
    · cases taken
  | readFails i =>
    rw [Mcp.step] at taken
    split at taken <;> cases taken
    exact labelled
  | record i callId now =>
    rw [Mcp.step] at taken
    split at taken <;> cases taken
    exact labelled

/-- Calls that read in turn get the responses to their own requests, and records of them. A read
out of turn returns a response with another id. -/
theorem dispatch_matched (host : Host) (key : Keypair) {calls : ι → JsonRpcRequest} {acts : List (Act ι)}
    (different : ∀ i j, valueOf (calls i).id = valueOf (calls j).id → i = j) :
    (Meets (step host key calls) (State.start ι) InTurn acts →
      ∀ s, Visits (step host key calls) (State.start ι) acts s → Matched host calls s) ∧
    ∀ s, Visits (step host key calls) (State.start ι) acts s → ∀ i line rest, s.pipe = line :: rest →
      (∀ fields, line ≠ .answer i fields) → valueOf (calls i).id ≠ .null →
      ∀ response, parseResponse line.fields = some response → valueOf response.id ≠ valueOf (calls i).id := by
  constructor
  · intro turns s visited
    exact (turns.visited start_inv (fun _ _ _ inv turn taken => inv.step turn taken) s visited).matched
  · rintro s ⟨before, after, _, run⟩ i line rest head other named response parsed same
    have labelled : Labelled calls s.pipe :=
      @steps_invariant _ _ _ _ _ _ (fun s => Labelled calls s.pipe) run nofun
        (fun _ _ _ labelled taken => labelled_step labelled taken)
    have label := labelled line (by rw [head]; exact List.mem_cons_self)
    cases line with
    | answer j fields =>
      rw [parseResponse_id parsed label] at same
      exact other fields (by rw [different j i same])
    | notification fields =>
      rw [parseResponse_no_id parsed label] at same
      exact named same.symm

end

/-- Calls of one method with the ids 0, 1, .. -/
def sampleCalls (i : Nat) : JsonRpcRequest := ⟨"2.0", some (.nat i), "tools/call", some (.obj [("name", .str "read")])⟩

def sampleKey : Keypair := ⟨[1], [2]⟩

def answerTo (i : Nat) (text : String) : Act Nat :=
  .answer i [("jsonrpc", .str "2.0"), ("id", .nat i), ("result", .str text)]

def crossed : List (Act Nat) :=
  [.write 0 true, .write 1 true, answerTo 0 "for 0", answerTo 1 "for 1", .read 1, .record 1 "mcp_1" 0]

def interrupted : List (Act Nat) :=
  [.write 0 true, .notify [("jsonrpc", .str "2.0"), ("method", .str "notifications/progress")], .read 0, .record 0 "mcp_0" 0]

theorem sampleCalls_different (i j : Nat) (same : valueOf (sampleCalls i).id = valueOf (sampleCalls j).id) : i = j := by
  simpa [valueOf,Json.ofOption,sampleCalls,Json.nat] using same

/-- Whether the call returned a response with its own id. -/
def ownId (s : State Nat) (i : Nat) : Bool := match s.phase i with
  | .returned response _ => decide (valueOf response.id = valueOf (sampleCalls i).id)
  | _ => true

theorem ownId_of_matched {s : State Nat} (matched : Matched sampleHost sampleCalls s) (i : Nat) : ownId s i = true := by
  unfold ownId
  split
  · rename_i response record returned
    exact decide_eq_true (matched i response record returned).1.1
  · rfl

/-- The second caller reads first and takes the answer of the first; a caller takes a notification. -/
theorem dispatch_crossed :
    (∃ s, Visits (step sampleHost sampleKey sampleCalls) (State.start Nat) crossed s ∧ ¬ Matched sampleHost sampleCalls s) ∧
    ∃ s, Visits (step sampleHost sampleKey sampleCalls) (State.start Nat) interrupted s ∧ ¬ Matched sampleHost sampleCalls s := by
  have mixed {acts : List (Act Nat)} {i : Nat}
      (ends : (steps (step sampleHost sampleKey sampleCalls) (State.start Nat) acts).map (fun s => ownId s i) = some false) :
      ∃ s, Visits (step sampleHost sampleKey sampleCalls) (State.start Nat) acts s ∧ ¬ Matched sampleHost sampleCalls s := by
    obtain ⟨s, run, other⟩ := Option.map_eq_some_iff.mp ends
    refine ⟨s, visits_last run, fun matched => ?_⟩
    rw [ownId_of_matched matched i] at other
    cases other
  exact ⟨mixed (i := 1) (by decide), mixed (i := 0) (by decide)⟩

/-- Two calls whose answers come the other way round, each read in turn. -/
def inOrder : List (Act Nat) :=
  [.write 0 true, .write 1 true, answerTo 1 "for 1", .read 1, answerTo 0 "for 0", .record 1 "mcp_1" 0, .read 0,
    .record 0 "mcp_0" 0]

theorem inOrder_turns : Meets (step sampleHost sampleKey sampleCalls) (State.start Nat) InTurn inOrder := by
  refine meets_cons rfl trivial (meets_cons rfl trivial (meets_cons rfl trivial (meets_cons rfl ⟨_, _, rfl⟩
    (meets_cons rfl trivial (meets_cons rfl trivial (meets_cons rfl ⟨_, _, rfl⟩ (meets_cons rfl trivial meets_nil)))))))

theorem inOrder_matched : Meets (step sampleHost sampleKey sampleCalls) (State.start Nat) InTurn inOrder ∧
    ∀ s, Visits (step sampleHost sampleKey sampleCalls) (State.start Nat) inOrder s → Matched sampleHost sampleCalls s :=
  ⟨inOrder_turns, (dispatch_matched sampleHost sampleKey sampleCalls_different).1 inOrder_turns⟩

end Zaion.Mcp
