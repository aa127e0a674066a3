import Zaion.Lib.Json
import Mathlib.Data.List.Infix

/-! The gate before a tool call. Enabled hooks whose trigger matches are read from the store
twice, once to see whether there are any and once to run them, and their results are collapsed
into one decision. -/
namespace Zaion.Hooks

structure HookDef where
  hookId : String
  name : String
  trigger : String
  handlerPath : String
  enabled : Bool
  deriving DecidableEq, Repr

structure HookResult where
  hookId : String
  hookName : String
  success : Bool
  output : Json
  error : Option String

inductive HookGate where
  | allow
  | block (hookName reason : String)
  deriving DecidableEq, Repr

/-- A field of the output, when it is a text. -/
def textField (output : Json) (field : String) : Option String := (output.get field).bind Json.asStr

def refuses (answer : Option String) : Bool := answer = some "block" ∨ answer = some "deny"

/-- The permission counts before the permission decision. -/
def permission (output : Json) : Option String :=
  (textField output "permission").or (textField output "permissionDecision")

def HookResult.preToolUseGate (r : HookResult) : Option HookGate :=
  if r.success = false then some (.block r.hookName (r.error.getD "hook execution failed"))
  else if refuses (textField r.output "decision") ∨ refuses (permission r.output) then
    some (.block r.hookName ((textField r.output "reason").getD "blocked by pre_tool_use hook"))
  else none

/-- `strip_suffix`. -/
def stripSuffix (text ending : String) : Option String :=
  if ending.toList <:+ text.toList then some (String.ofList (text.toList.take (text.length - ending.length))) else none

/-- `starts_with`. -/
def startsWith (text start : String) : Bool := start.toList <+: text.toList

def triggerMatches (pattern eventType : String) : Bool :=
  if pattern = "*" then true
  else if pattern = eventType then true
  else
    match stripSuffix pattern ".*" with
    | some start => startsWith eventType start
    | none => false

/-- One read of the store: its content, or an error. -/
abbrev Listing := Except String (List HookDef)

def matching (list : Listing) (eventType : String) : Listing :=
  list.map (List.filter (fun h => h.enabled && triggerMatches h.trigger eventType))

def preToolUse : String := "tool.pre_use"

/-- What the sandbox makes of a hook with a payload. -/
abbrev Sandbox := HookDef → Json → Except String Json

def runHook (sandbox : Sandbox) (payload : Json) (hook : HookDef) : HookResult :=
  match sandbox hook payload with
  | .ok output => ⟨hook.hookId, hook.name, true, output, none⟩
  | .error e => ⟨hook.hookId, hook.name, false, .null, some e⟩

def fire (list : Listing) (sandbox : Sandbox) (eventType : String) (payload : Json) : List HookResult :=
  match matching list eventType with
  | .ok hooks => hooks.map (runHook sandbox payload)
  | .error _ => []

def hasHooksFor (list : Listing) (eventType : String) : Bool :=
  match matching list eventType with
  | .ok hooks => !hooks.isEmpty
  | .error _ => false

def payloadFor (toolName : String) (arguments : Json) : Json :=
  .obj [("event", .str preToolUse), ("tool_name", .str toolName), ("arguments", arguments)]

/-- The first result that blocks decides. -/
def collapse : List HookResult → HookGate
  | [] => .allow
  | r :: rest =>
    match r.preToolUseGate with
    | some (.block hookName reason) => .block hookName reason
    | _ => collapse rest

/-- `first` and `second` are the two reads. -/
def firePreToolUse (first second : Listing) (sandbox : Sandbox) (toolName : String) (arguments : Json) : HookGate :=
  if hasHooksFor first preToolUse = false then .allow
  else collapse (fire second sandbox preToolUse (payloadFor toolName arguments))

/-- How a read of the store turned out: `none` when it went well. -/
def readStore (content : List HookDef) : Option String → Listing
  | none => .ok content
  | some e => .error e

/-- The hooks a tool call has to pass. -/
def asked (content : List HookDef) : List HookDef :=
  content.filter (fun h => h.enabled && triggerMatches h.trigger preToolUse)

/-- Each of the three fields. -/
def Denies (output : Json) : Prop :=
  refuses (textField output "decision") = true ∨ refuses (textField output "permission") = true ∨
    refuses (textField output "permissionDecision") = true

/-- The gate lets a call through only after it read the hooks, all of those asked ran and none denied. -/
def FailClosed (content : List HookDef) (first second : Option String) (sandbox : Sandbox) (toolName : String)
    (arguments : Json) : Prop :=
  firePreToolUse (readStore content first) (readStore content second) sandbox toolName arguments = .allow →
    first = none ∧ (asked content ≠ [] → second = none) ∧
      ∀ h ∈ asked content, ∃ output, sandbox h (payloadFor toolName arguments) = .ok output ∧ ¬ Denies output

/-- A permission that lets the call through hides a permission decision that does not. -/
def Hidden (output : Json) : Prop :=
  ∃ answer, textField output "permission" = some answer ∧ refuses (some answer) = false ∧
    refuses (textField output "permissionDecision") = true

/-- The hook does not run, or what the gate reads of its output denies. -/
def Stops (result : Except String Json) : Prop :=
  ∀ output, result = .ok output → refuses (textField output "decision") = true ∨ refuses (permission output) = true

section

variable {content : List HookDef} {first second : Option String} {sandbox : Sandbox} {toolName : String} {arguments : Json}

theorem gate_none_iff {payload : Json} {hook : HookDef} :
    (runHook sandbox payload hook).preToolUseGate = none ↔ ¬ Stops (sandbox hook payload) := by
  unfold runHook HookResult.preToolUseGate Stops
  cases ran : sandbox hook payload with
  | error e => simp
  | ok output => simp

theorem collapse_allow_iff {results : List HookResult} :
    collapse results = .allow ↔ ∀ r ∈ results, r.preToolUseGate = none := by
  induction results with
  | nil => simp [collapse]
  | cons r rest ih =>
    have blocks : ∀ gate, r.preToolUseGate = some gate → ∃ name reason, gate = .block name reason := by
      unfold HookResult.preToolUseGate
      intro gate found
      split at found
      · exact ⟨_, _, (Option.some.inj found).symm⟩
      · split at found
        · exact ⟨_, _, (Option.some.inj found).symm⟩
        · cases found
    unfold collapse
    cases gated : r.preToolUseGate with
    | none => simp [gated,ih]
    | some gate =>
      obtain ⟨name, reason, rfl⟩ := blocks gate gated
      simp [gated]

theorem asked_of_read (outcome : Option String) :
    matching (readStore content outcome) preToolUse = readStore (asked content) outcome := by
  cases outcome <;> rfl

/-- When the gate lets a call through. -/
theorem fire_allow_iff : firePreToolUse (readStore content first) (readStore content second) sandbox toolName arguments = .allow ↔
    first ≠ none ∨ asked content = [] ∨ second ≠ none ∨
      ∀ h ∈ asked content, ¬ Stops (sandbox h (payloadFor toolName arguments)) := by
  unfold firePreToolUse hasHooksFor fire
  rw [asked_of_read,asked_of_read]
  cases first with
  | some e => simp [readStore]
  | none =>
    by_cases none_ : asked content = []
    · simp [readStore,none_]
    · cases second with
      | some e => simp [readStore,none_,collapse]
      | none =>
        have some_ : (asked content).isEmpty = false := by simpa using none_
        simp [readStore,none_,some_,collapse_allow_iff,gate_none_iff]

@[simp] theorem refuses_none : refuses none = false := by decide

/-- What the gate does not see of an output that denies. -/
theorem denies_iff {output : Json} : Denies output ↔
    (refuses (textField output "decision") = true ∨ refuses (permission output) = true) ∨ Hidden output := by
  unfold Denies Hidden permission
  cases textField output "permission" with
  | none => simp
  | some answer =>
    simp only [Option.some_or,Option.some.injEq,exists_eq_left']
    by_cases refused : refuses (some answer) = true
    · simp [refused]
    · simp [refused]

theorem not_stops_iff {result : Except String Json} : ¬ Stops result ↔ ∃ output, result = .ok output ∧
    ¬ (refuses (textField output "decision") = true ∨ refuses (permission output) = true) := by
  unfold Stops
  push Not
  rfl

/-- The hooks that let the call through denied nothing, unless a decision was hidden. -/
theorem passed_iff {hooks : List HookDef} {payload : Json} :
    ((∀ h ∈ hooks, ¬ Stops (sandbox h payload)) → ∀ h ∈ hooks, ∃ output, sandbox h payload = .ok output ∧ ¬ Denies output) ↔
      (∀ h ∈ hooks, ∀ output, sandbox h payload = .ok output → ¬ Hidden output) ∨ ∃ h ∈ hooks, Stops (sandbox h payload) := by
  constructor
  · intro passed
    by_cases stopped : ∃ h ∈ hooks, Stops (sandbox h payload)
    · exact .inr stopped
    · refine .inl ?_
      intro h member output ran hidden
      obtain ⟨output', ran', fine⟩ := passed (fun h member stops => stopped ⟨h, member, stops⟩) h member
      rw [ran] at ran'
      cases ran'
      exact fine (denies_iff.mpr (.inr hidden))
  · rintro (clear | ⟨h, member, stops⟩) passed
    · intro h member
      obtain ⟨output, ran, fine⟩ := not_stops_iff.mp (passed h member)
      refine ⟨output, ran, ?_⟩
      intro denies
      rcases denies_iff.mp denies with seen | hidden
      · exact fine seen
      · exact clear h member output ran hidden
    · exact absurd stops (passed h member)

/-- The reads and results on which the gate is fail-closed. -/
def Unfailing (content : List HookDef) (first second : Option String) (sandbox : Sandbox) (payload : Json) : Prop :=
  first = none ∧ (asked content = [] ∨ second = none ∧
    ((∀ h ∈ asked content, ∀ output, sandbox h payload = .ok output → ¬ Hidden output) ∨
      ∃ h ∈ asked content, Stops (sandbox h payload)))

theorem failClosed_iff : FailClosed content first second sandbox toolName arguments ↔
    Unfailing content first second sandbox (payloadFor toolName arguments) := by
  unfold FailClosed Unfailing
  rw [fire_allow_iff]
  cases first with
  | some e => simp
  | none =>
    by_cases none_ : asked content = []
    · simp [none_]
    · cases second with
      | some e => simp [none_]
      | none =>
        simp only [ne_eq,not_true_eq_false,none_,false_or,true_and,implies_true]
        exact passed_iff

theorem triggerMatches_wildcard {start eventType : String} :
    triggerMatches (start ++ ".*") eventType = true ↔ start.toList <+: eventType.toList := by
  have long : start ++ ".*" ≠ "*" := by
    intro same
    have lengths := congrArg String.length same
    rw [String.length_append] at lengths
    have two : ".*".length = 2 := by decide
    have one : "*".length = 1 := by decide
    omega
  have stripped : stripSuffix (start ++ ".*") ".*" = some start := by
    unfold stripSuffix
    rw [String.toList_append,if_pos (List.suffix_append _ _),String.length_append,Nat.add_sub_cancel,
      ← String.length_toList,List.take_left,String.ofList_toList]
  unfold triggerMatches
  rw [if_neg long,stripped]
  by_cases same : start ++ ".*" = eventType
  · rw [if_pos same,← same,String.toList_append]
    simp
  · rw [if_neg same]
    simp [startsWith]

/-- An event type `start.` and something. -/
def Below (start eventType : String) : Prop := ∃ rest, rest ≠ "" ∧ eventType = start ++ "." ++ rest

/-- The gate is fail-closed exactly when no read fails and no decision is hidden, and a wildcard
matches what is below it exactly when nothing else begins like it. -/
theorem preToolUse_gate_iff (content : List HookDef) (first second : Option String) (sandbox : Sandbox) (toolName : String)
    (arguments : Json) (start eventType : String) :
    (FailClosed content first second sandbox toolName arguments ↔
      Unfailing content first second sandbox (payloadFor toolName arguments)) ∧
    ((triggerMatches (start ++ ".*") eventType = true ↔ Below start eventType) ↔
      (start.toList <+: eventType.toList → Below start eventType)) := by
  refine ⟨failClosed_iff, ?_⟩
  rw [triggerMatches_wildcard]
  refine ⟨fun same => same.mp, fun only => ⟨only, ?_⟩⟩
  rintro ⟨rest, _, rfl⟩
  rw [String.append_assoc,String.toList_append]
  exact List.prefix_append _ _

end

def sampleHook : HookDef := ⟨"hook-1", "guard", "tool.*", "guard.sh", true⟩

/-- A store that cannot be read lets the call through, a permission hides a denied decision, and
a wildcard matches a longer word. -/
theorem gate_fails_open :
    ¬ FailClosed [sampleHook] (some "disk I/O error") none (fun _ _ => .error "exit status 2") "shell_exec" .null ∧
    ¬ FailClosed [sampleHook] none (some "database is locked") (fun _ _ => .error "exit status 2") "shell_exec" .null ∧
    ¬ FailClosed [sampleHook] none none
      (fun _ _ => .ok (.obj [("permission", .str "allow"), ("permissionDecision", .str "deny")])) "shell_exec" .null ∧
    triggerMatches "cron.*" "cronjob" = true ∧ ¬ Below "cron" "cronjob" := by
  have here : sampleHook ∈ asked [sampleHook] := by decide
  refine ⟨?_, ?_, ?_, by decide, ?_⟩
  · intro closed
    cases (closed (by decide)).1
  · intro closed
    cases (closed (by decide)).2.1 (by decide)
  · intro closed
    obtain ⟨output, ran, fine⟩ := (closed (by decide)).2.2 sampleHook here
    cases ran
    exact fine (.inr (.inr (by decide)))
  · rintro ⟨rest, _, same⟩
    have chars := congrArg String.toList same
    rw [String.toList_append,String.toList_append] at chars
    have fifth := congrArg (fun l => l[4]?) chars
    simp at fifth

end Zaion.Hooks
