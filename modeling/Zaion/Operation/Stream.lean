import Zaion.Host
import Zaion.Lib.Steps
import Zaion.Lib.Text
import Mathlib.Data.List.Nodup
import Mathlib.Data.List.Perm.Basic

/-! The operation stream of a wake turn: the bus that numbers events under its lock, and the
recorder whose clones each number an event first and send it to the consumer afterwards. -/
namespace Zaion.Operation

open Lib

structure OperationContext where
  streamId : String
  turnId : String
  principalId : String
  channelId : String
  threadId : String
  deriving DecidableEq

inductive OperationStage where
  | ingress
  | identity
  | policy
  | context
  | reasoning
  | tool
  | ledger
  | proof
  | outcome
  | safety
  deriving DecidableEq, Repr

inductive OperationEventKind where
  | turnStarted
  | ingressAccepted
  | identityVerified
  | policyChecked
  | contextCompiling
  | contextCompiled
  | providerCalling
  | tokenDelta
  | actionIntentDetected
  | toolCallVisible
  | toolProgress
  | toolReceiptProduced
  | ledgerEventAppended
  | proofClosing
  | turnCompleted
  | turnDegraded
  | turnAborted
  | quarantined
  deriving DecidableEq, Repr

inductive OperationLevel where
  | trace
  | info
  | warning
  | error
  deriving DecidableEq, Repr

inductive RedactionClass where
  | publicClass
  | panelSafe
  | sensitive
  | secret
  deriving DecidableEq, Repr

structure OperationEvent where
  streamId : String
  turnId : String
  sequence : Nat
  timestamp : String
  principalId : String
  channelId : String
  threadId : String
  stage : OperationStage
  kind : OperationEventKind
  level : OperationLevel
  displayText : String
  payload : Json
  redactionClass : RedactionClass
  ledgerEventId : Option String
  proofHash : Option String
  parentSequence : Option Nat
  deriving DecidableEq

/-- The words in a field name that hide its value. -/
def secretWords : List String := ["key", "token", "secret", "password", "cookie", "bearer"]

def namesSecret (key : String) : Bool := secretWords.any (containsText (toAsciiLowercase key))

mutual

def redactJsonValue : Json → Json
  | .obj fields => .obj (redactFields fields)
  | .arr items => .arr (redactItems items)
  | other => other

def redactItems : List Json → List Json
  | [] => []
  | item :: rest => redactJsonValue item :: redactItems rest

def redactFields : List (String × Json) → List (String × Json)
  | [] => []
  | (key, value) :: rest =>
    (key, if namesSecret key then .str "[REDACTED]" else redactJsonValue value) :: redactFields rest

end

/-- `next_sequence` is a `u64` and wraps. -/
structure OperationStreamBus where
  context : OperationContext
  nextSequence : Nat
  capacity : Nat
  replay : List OperationEvent
  transcript : List OperationEvent

/-- What a caller passes to `emit`, and the time it reads. -/
structure Emission where
  stage : OperationStage
  kind : OperationEventKind
  level : OperationLevel
  displayText : String
  payload : Json
  redactionClass : RedactionClass
  parentSequence : Option Nat
  timestamp : String

namespace OperationStreamBus

def new (context : OperationContext) (replayCapacity : Nat) : OperationStreamBus :=
  ⟨context, 1, max replayCapacity 1, [], []⟩

/-- The event the bus makes next. -/
def numbered (bus : OperationStreamBus) (e : Emission) : OperationEvent where
  streamId := bus.context.streamId
  turnId := bus.context.turnId
  sequence := bus.nextSequence
  timestamp := e.timestamp
  principalId := bus.context.principalId
  channelId := bus.context.channelId
  threadId := bus.context.threadId
  stage := e.stage
  kind := e.kind
  level := e.level
  displayText := e.displayText
  payload := redactJsonValue e.payload
  redactionClass := e.redactionClass
  ledgerEventId := none
  proofHash := none
  parentSequence := e.parentSequence

def emit (bus : OperationStreamBus) (e : Emission) : OperationStreamBus × OperationEvent :=
  let event := bus.numbered e
  let replay := bus.replay ++ [event]
  ({ bus with
      nextSequence := (bus.nextSequence + 1) % 2 ^ 64
      replay := replay.drop (replay.length - bus.capacity)
      transcript := bus.transcript ++ [event] }, event)

end OperationStreamBus

/-! `WakeOperationRecorder::emit` from many clones. The bus step and the send are apart, so
between them other clones take their own steps. -/

/-- Events numbered but not yet sent stand in `unsent` in the order of their bus steps;
`received` is the channel, which hands the consumer what was sent in order. -/
structure Recorder where
  bus : OperationStreamBus
  unsent : List OperationEvent
  received : List OperationEvent

inductive RecorderStep where
  | busEmit (emission : Emission)
  | send (emitter : Nat)

namespace Recorder

def new (context : OperationContext) (replayCapacity : Nat) : Recorder := ⟨.new context replayCapacity, [], []⟩

def step (r : Recorder) : RecorderStep → Option Recorder
  | .busEmit emission =>
    let (bus, event) := r.bus.emit emission
    some { r with bus := bus, unsent := r.unsent ++ [event] }
  | .send i =>
    match r.unsent[i]? with
    | none => none
    | some event => some { r with unsent := r.unsent.eraseIdx i, received := r.received ++ [event] }

end Recorder

/-- The consumer got every event once, by rising numbers, in the order of the transcript. -/
structure InOrder (r : Recorder) : Prop where
  all : r.received = r.bus.transcript
  rising : (r.received.map OperationEvent.sequence).Pairwise (· < ·)

/-- A send is made by the clone whose bus step is the oldest of those not sent. -/
def OldestFirst (_ : Recorder) : RecorderStep → Prop
  | .busEmit _ => True
  | .send i => i = 0

def isEmit : RecorderStep → Bool
  | .busEmit _ => true
  | .send _ => false

section

variable {r r' : Recorder} {a : RecorderStep} {context : OperationContext} {capacity : Nat} {acts : List RecorderStep}

/-- All a step does. -/
theorem step_cases (taken : r.step a = some r') :
    (∃ emission, a = .busEmit emission ∧ r' = { r with
      bus := (r.bus.emit emission).1, unsent := r.unsent ++ [r.bus.numbered emission] }) ∨
    ∃ i event, a = .send i ∧ r.unsent[i]? = some event ∧
      r' = { r with unsent := r.unsent.eraseIdx i, received := r.received ++ [event] } := by
  cases a with
  | busEmit emission => exact .inl ⟨emission, rfl, (Option.some.inj taken).symm⟩
  | send i =>
    simp only [Recorder.step] at taken
    split at taken
    · cases taken
    · rename_i event here
      exact .inr ⟨i, event, rfl, here, (Option.some.inj taken).symm⟩

/-- The number of the event at a place of the transcript. -/
def numberAt (i : Nat) : Nat := (i + 1) % 2 ^ 64

/-- Nothing numbered is lost or doubled, and the unsent keep the order of the bus. -/
structure Kept (r : Recorder) : Prop where
  once : (r.received ++ r.unsent).Perm r.bus.transcript
  order : r.unsent.Sublist r.bus.transcript
  numbers : r.bus.transcript.map OperationEvent.sequence = (List.range r.bus.transcript.length).map numberAt
  next : r.bus.nextSequence = numberAt r.bus.transcript.length

theorem kept_new (context : OperationContext) (capacity : Nat) : Kept (.new context capacity) :=
  ⟨List.Perm.refl _, List.Sublist.refl _, rfl, rfl⟩

theorem Kept.step (kept : Kept r) (taken : r.step a = some r') : Kept r' := by
  obtain ⟨once, order, numbers, next⟩ := kept
  rcases step_cases taken with ⟨emission, rfl, rfl⟩ | ⟨i, event, rfl, here, rfl⟩
  · constructor
    · rw [← List.append_assoc]
      exact once.append_right [r.bus.numbered emission]
    · exact order.append (List.Sublist.refl _)
    · simp only [OperationStreamBus.emit,List.map_append,List.map_singleton,List.length_append,List.length_singleton,
        List.range_succ,numbers,OperationStreamBus.numbered,next]
    · simp only [OperationStreamBus.emit,next,numberAt,List.length_append,List.length_singleton]
      omega
  · obtain ⟨bound, rfl⟩ := List.getElem?_eq_some_iff.mp here
    constructor
    · rw [List.append_assoc,List.singleton_append]
      exact ((List.getElem_cons_eraseIdx_perm bound).append_left r.received).trans once
    · exact (List.eraseIdx_sublist r.unsent i).trans order
    · exact numbers
    · exact next

theorem kept_run (run : steps Recorder.step (.new context capacity) acts = some r) : Kept r :=
  steps_invariant run (kept_new context capacity) (fun _ _ _ kept taken => kept.step taken)

/-- What was received and what was numbered only grow. -/
def Extends (r r' : Recorder) : Prop := r.received <+: r'.received ∧ r.bus.transcript <+: r'.bus.transcript

theorem extends_run {rest : List RecorderStep} (run : steps Recorder.step r rest = some r') : Extends r r' := by
  refine steps_invariant run ⟨List.prefix_rfl, List.prefix_rfl⟩ ?_
  intro s a s' before taken
  rcases step_cases taken with ⟨emission, rfl, rfl⟩ | ⟨i, event, rfl, here, rfl⟩
  · exact ⟨before.1, before.2.trans (List.prefix_append _ _)⟩
  · exact ⟨before.1.trans (List.prefix_append _ _), before.2⟩

theorem transcript_length (run : steps Recorder.step (.new context capacity) acts = some r) :
    r.bus.transcript.length = acts.countP isEmit := by
  induction acts using List.reverseRecOn generalizing r with
  | nil =>
    rw [← Option.some.inj run]
    rfl
  | append_singleton acts a ih =>
    obtain ⟨s, before, taken⟩ := steps_concat_some run
    rw [List.countP_append,← ih before]
    rcases step_cases taken with ⟨emission, rfl, rfl⟩ | ⟨i, event, rfl, here, rfl⟩
    · simp [OperationStreamBus.emit,isEmit]
    · simp [isEmit]

/-- Numbers rise until they wrap. -/
theorem numbers_rise_iff (n : Nat) : ((List.range n).map numberAt).Pairwise (· < ·) ↔ n < 2 ^ 64 := by
  rw [List.pairwise_map]
  constructor
  · intro rising
    by_contra wrapped
    have bound : 2 ^ 64 - 1 < (List.range n).length := by rw [List.length_range]; omega
    have last := List.pairwise_iff_getElem.mp rising 0 (2 ^ 64 - 1) (by omega) bound (by omega)
    rw [List.getElem_range,List.getElem_range] at last
    revert last
    decide
  · intro few
    refine List.pairwise_lt_range.imp_of_mem ?_
    intro i j _ inside less
    have bound := List.mem_range.mp inside
    unfold numberAt
    rw [Nat.mod_eq_of_lt (by omega),Nat.mod_eq_of_lt (by omega)]
    omega

/-- Two parts of a rising transcript with the same events are the same list. -/
theorem eq_of_rising {l l' all : List OperationEvent} (rising : (all.map OperationEvent.sequence).Pairwise (· < ·))
    (inside : l.Sublist all) (inside' : l'.Sublist all) (perm : l.Perm l') : l = l' := by
  rw [List.pairwise_map] at rising
  refine perm.eq_of_pairwise ?_ (rising.sublist inside) (rising.sublist inside')
  intro x y _ _ below above
  omega

/-- What was received, and then what is unsent, make up the transcript. -/
def Ordered (r : Recorder) : Prop := r.received ++ r.unsent = r.bus.transcript

/-- Every state on the way to a final one in order is ordered. -/
theorem Kept.ordered (kept : Kept r) (extends_ : Extends r r') (final : InOrder r') : Ordered r := by
  have shorter : r.received.length ≤ r.bus.transcript.length := by
    rw [← kept.once.length_eq,List.length_append]
    omega
  have ahead : r.received <+: r.bus.transcript :=
    List.prefix_of_prefix_length_le (final.all ▸ extends_.1) extends_.2 shorter
  obtain ⟨rest, split⟩ := ahead
  have rising := final.rising
  rw [final.all] at rising
  have part : rest.Sublist r.bus.transcript := split ▸ List.sublist_append_right r.received rest
  have perm : r.unsent.Perm rest := (List.perm_append_left_iff r.received).mp (kept.once.trans (split ▸ List.Perm.refl _))
  have same := eq_of_rising rising (kept.order.trans extends_.2.sublist) (part.trans extends_.2.sublist) perm
  rw [Ordered,same,split]

/-- From a state in order, only the oldest send leads to one in order. -/
theorem send_oldest {i : Nat} {event : OperationEvent} (distinct : r.bus.transcript.Nodup)
    (here : r.unsent[i]? = some event) (before : Ordered r)
    (after : r.received ++ [event] ++ r.unsent.eraseIdx i = r.bus.transcript) : i = 0 := by
  obtain ⟨bound, _⟩ := List.getElem?_eq_some_iff.mp here
  unfold Ordered at before
  rw [← before,List.append_assoc,List.singleton_append] at after
  have shape : event :: r.unsent.eraseIdx i = r.unsent := List.append_cancel_left after
  have first : r.unsent[0]? = some event := by
    rw [← shape]
    rfl
  have nodup : r.unsent.Nodup := (before ▸ distinct).sublist (List.sublist_append_right _ _)
  exact (List.getElem?_inj bound nodup).mp (here.trans first.symm)

theorem oldest_of_inOrder (run : steps Recorder.step (.new context capacity) acts = some r) (final : InOrder r) :
    Meets Recorder.step (.new context capacity) OldestFirst acts := by
  intro before a after s split here
  rw [split,steps_append,here,Option.bind_some] at run
  have next := run
  rw [steps] at next
  obtain ⟨s', taken, rest⟩ := Option.bind_eq_some_iff.mp next
  have kept := kept_run here
  have ordered := kept.ordered (extends_run run) final
  have ordered' := (kept.step taken).ordered (extends_run rest) final
  have distinct : s.bus.transcript.Nodup := by
    have rising := final.rising
    rw [final.all] at rising
    have nodup := rising.imp (fun less => Nat.ne_of_lt less)
    exact (List.Nodup.of_map _ nodup).sublist (extends_run run).2.sublist
  rcases step_cases taken with ⟨emission, rfl, rfl⟩ | ⟨i, event, rfl, there, rfl⟩
  · trivial
  · exact send_oldest distinct there ordered ordered'

theorem ordered_of_oldest (run : steps Recorder.step (.new context capacity) acts = some r)
    (oldest : Meets Recorder.step (.new context capacity) OldestFirst acts) : Ordered r := by
  have first : Ordered (.new context capacity) := rfl
  refine oldest.invariant run first ?_
  intro s a s' ordered inTurn taken
  unfold Ordered at ordered ⊢
  rcases step_cases taken with ⟨emission, rfl, rfl⟩ | ⟨i, event, rfl, here, rfl⟩
  · simp only [OperationStreamBus.emit]
    rw [← ordered,List.append_assoc]
  · obtain rfl : i = 0 := inTurn
    cases unsent : s.unsent with
    | nil => simp [unsent] at here
    | cons head rest =>
      obtain rfl : head = event := by simpa [unsent] using here
      rw [← ordered,unsent]
      simp

end

/-- Clones emit and send in any interleaving. Once everything is sent, the consumer has every
event once, in rising order and in the order of the transcript, exactly when each send was
of the oldest event not sent before and the numbers did not run out. -/
theorem in_order_iff {context : OperationContext} {capacity : Nat} {acts : List RecorderStep} {r : Recorder}
    (run : steps Recorder.step (.new context capacity) acts = some r) (sent : r.unsent = []) :
    InOrder r ↔ Meets Recorder.step (.new context capacity) OldestFirst acts ∧ acts.countP isEmit < 2 ^ 64 := by
  have kept := kept_run run
  have rise : (r.bus.transcript.map OperationEvent.sequence).Pairwise (· < ·) ↔ acts.countP isEmit < 2 ^ 64 := by
    rw [kept.numbers,transcript_length run]
    exact numbers_rise_iff _
  constructor
  · intro final
    exact ⟨oldest_of_inOrder run final, rise.mp (final.all ▸ final.rising)⟩
  · rintro ⟨oldest, few⟩
    have all : r.received = r.bus.transcript := by
      have ordered := ordered_of_oldest run oldest
      rwa [Ordered,sent,List.append_nil] at ordered
    exact ⟨all, all ▸ rise.mpr few⟩

/-- Nothing is ever lost or received twice. -/
theorem received_once {context : OperationContext} {capacity : Nat} {acts : List RecorderStep} {r : Recorder}
    (run : steps Recorder.step (.new context capacity) acts = some r) :
    (r.received ++ r.unsent).Perm r.bus.transcript := (kept_run run).once

def sampleContext : OperationContext := ⟨"stream-test", "turn-test", "did:key:test", "telegram", "thread-1"⟩

def sampleEmission (text : String) : Emission :=
  ⟨.tool, .toolProgress, .info, text, .obj [], .publicClass, none, "2026-01-01T00:00:00Z"⟩

/-- The second clone sends between the two steps of the first. -/
def overtaking : List RecorderStep := [.busEmit (sampleEmission "a"), .busEmit (sampleEmission "b"), .send 1, .send 0]

theorem overtaking_out_of_order : ∃ r, steps Recorder.step (.new sampleContext 8) overtaking = some r ∧ r.unsent = [] ∧
    ¬ InOrder r := by
  refine ⟨_, rfl, rfl, ?_⟩
  intro final
  have rising := final.rising
  revert rising
  decide

def inTurnSends : List RecorderStep := [.busEmit (sampleEmission "a"), .busEmit (sampleEmission "b"), .send 0, .send 0]

instance (r : Recorder) (a : RecorderStep) : Decidable (OldestFirst r a) :=
  match a with
  | .busEmit _ => inferInstanceAs (Decidable True)
  | .send i => inferInstanceAs (Decidable (i = 0))

theorem inTurnSends_in_order : ∃ r, steps Recorder.step (.new sampleContext 8) inTurnSends = some r ∧ InOrder r := by
  obtain ⟨r, run, sent⟩ : ∃ r, steps Recorder.step (.new sampleContext 8) inTurnSends = some r ∧ r.unsent = [] :=
    ⟨_, rfl, rfl⟩
  have oldest : Meets Recorder.step (.new sampleContext 8) OldestFirst inTurnSends := meets_of_check (by decide)
  exact ⟨r, run, (in_order_iff run sent).mpr ⟨oldest, by decide⟩⟩

end Zaion.Operation
