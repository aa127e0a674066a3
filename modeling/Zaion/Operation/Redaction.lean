import Zaion.Operation.Stream
import Zaion.Sample

/-! What the panel learns of a tool call. The arguments are redacted as a JSON value; text that
does not parse goes out as it is, under the key `raw`. -/
namespace Zaion.Operation

open Lib

mutual

/-- Two values that differ only in what fields with a secret name hold. -/
inductive Alike : Json → Json → Prop
  | same (v : Json) : Alike v v
  | arr {items others : List Json} : AlikeItems items others → Alike (.arr items) (.arr others)
  | obj {fields others : List (String × Json)} : AlikeFields fields others → Alike (.obj fields) (.obj others)

inductive AlikeItems : List Json → List Json → Prop
  | nil : AlikeItems [] []
  | cons {item other : Json} {items others : List Json} : Alike item other → AlikeItems items others →
      AlikeItems (item :: items) (other :: others)

inductive AlikeFields : List (String × Json) → List (String × Json) → Prop
  | nil : AlikeFields [] []
  | hidden {key : String} {value other : Json} {fields others : List (String × Json)} : namesSecret key = true →
      AlikeFields fields others → AlikeFields ((key, value) :: fields) ((key, other) :: others)
  | shown {key : String} {value other : Json} {fields others : List (String × Json)} : Alike value other →
      AlikeFields fields others → AlikeFields ((key, value) :: fields) ((key, other) :: others)

end

mutual

/-- Redaction does not tell them apart. -/
theorem Alike.redact {v w : Json} : Alike v w → redactJsonValue v = redactJsonValue w
  | .same _ => rfl
  | .arr items => by rw [redactJsonValue,redactJsonValue,items.redact]
  | .obj fields => by rw [redactJsonValue,redactJsonValue,fields.redact]

theorem AlikeItems.redact {items others : List Json} : AlikeItems items others → redactItems items = redactItems others
  | .nil => rfl
  | .cons item rest => by rw [redactItems,redactItems,item.redact,rest.redact]

theorem AlikeFields.redact {fields others : List (String × Json)} :
    AlikeFields fields others → redactFields fields = redactFields others
  | .nil => rfl
  | .hidden secret rest => by rw [redactFields,redactFields,if_pos secret,if_pos secret,rest.redact]
  | .shown value rest => by rw [redactFields,redactFields,value.redact,rest.redact]

end

mutual

/-- Redacting twice is redacting once. -/
theorem redact_redact (v : Json) : redactJsonValue (redactJsonValue v) = redactJsonValue v := by
  cases v with
  | obj fields => rw [redactJsonValue,redactJsonValue,redactFields_redactFields fields]
  | arr items => rw [redactJsonValue,redactJsonValue,redactItems_redactItems items]
  | _ => rfl

theorem redactItems_redactItems (items : List Json) : redactItems (redactItems items) = redactItems items := by
  cases items with
  | nil => rfl
  | cons item rest => rw [redactItems,redactItems,redact_redact item,redactItems_redactItems rest]

theorem redactFields_redactFields (fields : List (String × Json)) :
    redactFields (redactFields fields) = redactFields fields := by
  match fields with
  | [] => rfl
  | (key, value) :: rest =>
    rw [redactFields,redactFields,redactFields_redactFields rest]
    by_cases secret : namesSecret key = true
    · rw [if_pos secret,if_pos secret]
    · rw [if_neg secret,if_neg secret,redact_redact value]

end

structure VisibleToolCall where
  callId : String
  toolName : String
  toolKind : String
  purpose : String
  inputPreview : Json
  safetyClass : String
  permissionState : String
  policyDecisionId : Option String
  deriving DecidableEq

def VisibleToolCall.redactedForPanel (call : VisibleToolCall) : VisibleToolCall :=
  { call with inputPreview := redactJsonValue call.inputPreview }

structure ToolCallEvent where
  id : String
  name : String
  arguments : String
  deriving DecidableEq

/-- `pretty` is `serde_json::to_string_pretty`. -/
def ToolCallEvent.fromVisibleToolCall (pretty : Json → Option String) (call : VisibleToolCall) : ToolCallEvent :=
  let call := call.redactedForPanel
  ⟨call.callId, call.toolName, (pretty call.inputPreview).getD "\x7b\x7d"⟩

/-- What `emit_tool_visible` passes to the bus. -/
def toolVisible (host : Host) (call : ToolCallEvent) (parentSequence : Option Nat) (timestamp : String) : Emission where
  stage := .tool
  kind := .toolCallVisible
  level := .info
  displayText := "tool " ++ call.name ++ " visible"
  payload := .obj [("tool_call_id", .str call.id), ("tool_name", .str call.name),
    ("input_preview", (host.ofText call.arguments).getD (.obj [("raw", .str call.arguments)]))]
  redactionClass := .panelSafe
  parentSequence := parentSequence
  timestamp := timestamp

def emitToolVisible (host : Host) (bus : OperationStreamBus) (call : ToolCallEvent) (parentSequence : Option Nat)
    (timestamp : String) : OperationStreamBus × OperationEvent :=
  bus.emit (toolVisible host call parentSequence timestamp)

/-- An event without the time it was made. -/
def OperationEvent.untimed (event : OperationEvent) : OperationEvent := { event with timestamp := "" }

/-- Calls with either text for arguments are recorded as the same event, timestamps aside. -/
def SameEvents (host : Host) (text other : String) : Prop :=
  ∀ (bus : OperationStreamBus) (id name : String) (parentSequence : Option Nat) (timestamp later : String),
    (emitToolVisible host bus ⟨id, name, text⟩ parentSequence timestamp).2.untimed =
      (emitToolVisible host bus ⟨id, name, other⟩ parentSequence later).2.untimed

/-- What the text of a field with a secret name begins with. -/
def fieldStart (key : String) : String := "\"" ++ key ++ "\":"

/-- The text holds a field with a secret name. -/
def StoresSecret (text : String) : Prop :=
  ∃ before key value : String, namesSecret key = true ∧ text = before ++ fieldStart key ++ value

/-- The texts differ only behind such a key. -/
def Rewritten (text other : String) : Prop :=
  ∃ before key value value' : String, namesSecret key = true ∧ text = before ++ fieldStart key ++ value ∧
    other = before ++ fieldStart key ++ value'

/-- The panel learns nothing of the secrets in an argument text. -/
structure Discreet (host : Host) (pretty : Json → Option String) (text : String) : Prop where
  events : ∀ other v w, host.ofText text = some v → host.ofText other = some w → Alike v w → SameEvents host text other
  calls : ∀ (call : VisibleToolCall) (v w : Json), host.ofText text = some v → Alike v w →
    ToolCallEvent.fromVisibleToolCall pretty { call with inputPreview := v } =
      ToolCallEvent.fromVisibleToolCall pretty { call with inputPreview := w }
  again : ∀ v, redactJsonValue (redactJsonValue v) = redactJsonValue v
  unparsed : ∀ other, host.ofText text = none → host.ofText other = none → Rewritten text other →
    SameEvents host text other

/-- Events agree when the previews are redacted to the same value. -/
theorem sameEvents_of_redact {host : Host} {text other : String}
    (same : redactJsonValue ((host.ofText text).getD (.obj [("raw", .str text)])) =
      redactJsonValue ((host.ofText other).getD (.obj [("raw", .str other)]))) : SameEvents host text other := by
  intro bus id name parentSequence timestamp later
  simp only [emitToolVisible,OperationStreamBus.emit,OperationStreamBus.numbered,OperationEvent.untimed,toolVisible,
    redactJsonValue,redactFields,same]

/-- An event shows text that does not parse in full. -/
theorem payload_of_unparsed {host : Host} {text : String} (unparsed : host.ofText text = none) (bus : OperationStreamBus) :
    (emitToolVisible host bus ⟨"", "", text⟩ none "").2.untimed.payload = .obj [("tool_call_id", .str ""),
      ("tool_name", .str ""), ("input_preview", .obj [("raw", .str text)])] := by
  have plain : namesSecret "tool_call_id" = false ∧ namesSecret "tool_name" = false ∧
      namesSecret "input_preview" = false ∧ namesSecret "raw" = false := by decide
  obtain ⟨id, name, preview, raw⟩ := plain
  simp [emitToolVisible,OperationStreamBus.emit,OperationStreamBus.numbered,OperationEvent.untimed,toolVisible,unparsed,
    redactJsonValue,redactFields,id,name,preview,raw]

/-- A host that has no value for text ending with an opening brace. -/
def closedHost : Host :=
  { sampleHost with ofText := fun text => if text.toList.getLast? = some '\x7b' then none else sampleHost.ofText text }

end Zaion.Operation
