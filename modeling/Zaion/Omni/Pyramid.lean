import Zaion.Lib.Fit
import Zaion.Omni.Session
import Zaion.Sample

/-! The context pyramid. Messages are taken in the order of the session until one does not fit; the
layers come in only as the place a message is put. -/
namespace Zaion.Omni

open Lib

/-- Lower comes first. -/
def ContextLayer.priority : ContextLayer → Nat
  | .l0Critical => 0
  | .l1Recent => 1
  | .l2Important => 2
  | .l3Background => 3
  | .l4Archive => 4

/-- One list of texts for each layer. -/
structure ContextPyramid where
  layers : ContextLayer → List String
  tokenBudget : Nat
  tokensUsed : Nat

namespace ContextPyramid

def new (tokenBudget : Nat) : ContextPyramid := ⟨fun _ => [], tokenBudget, 0⟩

/-- Whether the text fits, and the pyramid with it if it does. -/
def addToLayer (pyramid : ContextPyramid) (layer : ContextLayer) (content : String) : Bool × ContextPyramid :=
  let tokens := content.utf8ByteSize / 4
  if pyramid.tokenBudget < pyramid.tokensUsed + tokens then (false, pyramid)
  else (true, { pyramid with
    tokensUsed := pyramid.tokensUsed + tokens
    layers := fun other => if other = layer then pyramid.layers layer ++ [content] else pyramid.layers other })

def entry (msg : UnifiedMessage) : String := "[" ++ msg.sourceChannelId ++ "] " ++ msg.role ++ ": " ++ msg.content

/-- The loop over the messages, which ends at the first that does not fit. -/
def addAll : ContextPyramid → List UnifiedMessage → ContextPyramid
  | pyramid, [] => pyramid
  | pyramid, msg :: rest =>
    match pyramid.addToLayer msg.layer (entry msg) with
    | (true, pyramid) => addAll pyramid rest
    | (false, pyramid) => pyramid

def buildFromSession (session : OmniSession) (tokenBudget : Nat) : ContextPyramid :=
  addAll (new tokenBudget) session.messages

def layerTokenCount (pyramid : ContextPyramid) (layer : ContextLayer) : Nat :=
  ((pyramid.layers layer).map fun text => text.utf8ByteSize / 4).sum

end ContextPyramid

open ContextPyramid

/-- What a message takes of the budget. -/
def tokensOfEntry (msg : UnifiedMessage) : Nat := (entry msg).utf8ByteSize / 4

def totalTokens (messages : List UnifiedMessage) : Nat := (messages.map tokensOfEntry).sum

/-- The messages of a layer. -/
def ofLayer (layer : ContextLayer) (messages : List UnifiedMessage) : List UnifiedMessage :=
  messages.filter fun msg => decide (msg.layer = layer)

/-- The messages of a layer and of those before it. -/
def upTo (layer : ContextLayer) (messages : List UnifiedMessage) : List UnifiedMessage :=
  messages.filter fun msg => decide (msg.layer.priority ≤ layer.priority)

def allLayers : List ContextLayer := [.l0Critical, .l1Recent, .l2Important, .l3Background, .l4Archive]

/-- What the layers up to one take. -/
def tokensUpTo (pyramid : ContextPyramid) (layer : ContextLayer) : Nat :=
  ((allLayers.filter fun other => decide (other.priority ≤ layer.priority)).map pyramid.layerTokenCount).sum

/-- A pyramid that honours the layers' order: within its budget, each layer the texts of its first messages, all of
the critical ones if they fit, and nothing of a layer while a message of an earlier one is left out that would fit
beside what is there of its own layer and the earlier ones. -/
structure Honours (messages : List UnifiedMessage) (budget : Nat) (pyramid : ContextPyramid) : Prop where
  within : (allLayers.map pyramid.layerTokenCount).sum ≤ budget
  used : pyramid.tokensUsed = (allLayers.map pyramid.layerTokenCount).sum
  layered : ∀ layer, pyramid.layers layer <+: (ofLayer layer messages).map entry
  critical : totalTokens (ofLayer .l0Critical messages) ≤ budget →
    pyramid.layers .l0Critical = (ofLayer .l0Critical messages).map entry
  ordered : ∀ layer later, layer.priority < later.priority → pyramid.layers later ≠ [] →
    ∀ msg ∈ (ofLayer layer messages).drop (pyramid.layers layer).length,
      budget < tokensUpTo pyramid layer + tokensOfEntry msg

/-- Where the messages have to be cut for the budget, no critical one is cut off unless they are too many on their
own, and none that would fit if what the part taken has of later layers were left out. -/
def CutFairly (messages : List UnifiedMessage) (budget : Nat) : Prop :=
  ∀ taken msg rest, messages = taken ++ msg :: rest → totalTokens taken ≤ budget →
    budget < totalTokens taken + tokensOfEntry msg → ∀ cut ∈ msg :: rest,
      (cut.layer = .l0Critical → budget < totalTokens (ofLayer .l0Critical messages)) ∧
      ((∃ other ∈ taken, cut.layer.priority < other.layer.priority) →
        budget < totalTokens (upTo cut.layer taken) + tokensOfEntry cut)

section

variable {messages taken rest : List UnifiedMessage} {budget : Nat} {layer : ContextLayer}

/-- The pyramid of the messages taken. -/
def pyramidOf (budget : Nat) (taken : List UnifiedMessage) : ContextPyramid :=
  ⟨fun layer => (ofLayer layer taken).map entry, budget, totalTokens taken⟩

theorem totalTokens_append (a b : List UnifiedMessage) : totalTokens (a ++ b) = totalTokens a + totalTokens b := by
  rw [totalTokens,List.map_append,List.sum_append,← totalTokens,← totalTokens]

theorem totalTokens_cons (msg : UnifiedMessage) (rest : List UnifiedMessage) :
    totalTokens (msg :: rest) = tokensOfEntry msg + totalTokens rest := rfl

theorem ofLayer_append (layer : ContextLayer) (a b : List UnifiedMessage) :
    ofLayer layer (a ++ b) = ofLayer layer a ++ ofLayer layer b := List.filter_append _ _

theorem mem_ofLayer {msg : UnifiedMessage} : msg ∈ ofLayer layer messages ↔ msg ∈ messages ∧ msg.layer = layer := by
  rw [ofLayer,List.mem_filter,decide_eq_true_eq]

/-- One message more. -/
theorem addToLayer_pyramidOf (msg : UnifiedMessage) : (pyramidOf budget taken).addToLayer msg.layer (entry msg) =
    if budget < totalTokens taken + tokensOfEntry msg then (false, pyramidOf budget taken)
    else (true, pyramidOf budget (taken ++ [msg])) := by
  have layers : (fun other => if other = msg.layer then (ofLayer msg.layer taken).map entry ++ [entry msg]
      else (ofLayer other taken).map entry) = fun other => (ofLayer other (taken ++ [msg])).map entry := by
    funext other
    rw [ofLayer_append,List.map_append]
    by_cases same : other = msg.layer
    · rw [if_pos same,same]
      simp [ofLayer]
    · have apart : ¬ msg.layer = other := fun equal => same equal.symm
      rw [if_neg same]
      simp [ofLayer,apart]
  have tokens : totalTokens taken + tokensOfEntry msg = totalTokens (taken ++ [msg]) := (totalTokens_append taken [msg]).symm
  have cost : (entry msg).utf8ByteSize / 4 = tokensOfEntry msg := rfl
  simp only [addToLayer,pyramidOf,cost,layers,tokens]

/-- The loop takes the longest part from the front that fits. -/
theorem addAll_pyramidOf (taken rest : List UnifiedMessage) : addAll (pyramidOf budget taken) rest =
    pyramidOf budget (taken ++ fitting tokensOfEntry budget (totalTokens taken) rest) := by
  induction rest generalizing taken with
  | nil => rw [addAll,fitting,List.append_nil]
  | cons msg rest ih =>
    rw [addAll,addToLayer_pyramidOf,fitting]
    by_cases full : budget < totalTokens taken + tokensOfEntry msg
    · rw [if_pos full,if_pos full,List.append_nil]
    · rw [if_neg full,if_neg full]
      dsimp only
      rw [ih,totalTokens_append,List.append_assoc]
      rfl

theorem buildFromSession_eq (session : OmniSession) (budget : Nat) : buildFromSession session budget =
    pyramidOf budget (fitting tokensOfEntry budget 0 session.messages) := addAll_pyramidOf [] session.messages

theorem layerTokenCount_pyramidOf : (pyramidOf budget taken).layerTokenCount layer = totalTokens (ofLayer layer taken) := by
  rw [layerTokenCount,pyramidOf,List.map_map]
  rfl

/-- Messages of two kinds, counted apart. -/
theorem totalTokens_kinds {p q : UnifiedMessage → Bool} (apart : ∀ msg, p msg = true → q msg = false)
    (messages : List UnifiedMessage) : totalTokens (messages.filter fun msg => p msg || q msg) =
      totalTokens (messages.filter p) + totalTokens (messages.filter q) := by
  induction messages with
  | nil => rfl
  | cons msg rest ih =>
    cases first : p msg with
    | true => simp [first,apart msg first,totalTokens_cons,ih,Nat.add_assoc]
    | false =>
      cases second : q msg with
      | true => simp [first,second,totalTokens_cons,ih,Nat.add_left_comm]
      | false => simp [first,second,ih]

/-- Layers counted one by one, and together. -/
theorem sum_layers {layers : List ContextLayer} (distinct : layers.Nodup) (messages : List UnifiedMessage) :
    (layers.map fun layer => totalTokens (ofLayer layer messages)).sum =
      totalTokens (messages.filter fun msg => decide (msg.layer ∈ layers)) := by
  induction layers with
  | nil => simp [totalTokens]
  | cons layer layers ih =>
    obtain ⟨absent, distinct⟩ := List.nodup_cons.mp distinct
    have apart : ∀ msg : UnifiedMessage, decide (msg.layer = layer) = true → decide (msg.layer ∈ layers) = false := by
      intro msg same
      rw [of_decide_eq_true same]
      exact decide_eq_false absent
    rw [List.map_cons,List.sum_cons,ih distinct,ofLayer,← totalTokens_kinds apart]
    simp only [List.mem_cons,Bool.decide_or]

theorem mem_allLayers (layer : ContextLayer) : layer ∈ allLayers := by cases layer <;> decide

theorem allLayers_nodup : allLayers.Nodup := by decide

theorem tokensUpTo_pyramidOf : tokensUpTo (pyramidOf budget taken) layer = totalTokens (upTo layer taken) := by
  have counts : (pyramidOf budget taken).layerTokenCount = fun layer => totalTokens (ofLayer layer taken) :=
    funext fun _ => layerTokenCount_pyramidOf
  rw [tokensUpTo,counts,sum_layers (allLayers_nodup.filter _),upTo]
  simp only [List.mem_filter,mem_allLayers,true_and,decide_eq_true_eq]

theorem tokens_pyramidOf : (allLayers.map (pyramidOf budget taken).layerTokenCount).sum = totalTokens taken := by
  have counts : (pyramidOf budget taken).layerTokenCount = fun layer => totalTokens (ofLayer layer taken) :=
    funext fun _ => layerTokenCount_pyramidOf
  rw [counts,sum_layers allLayers_nodup]
  simp only [mem_allLayers,decide_true,List.filter_true]

/-- What the pyramid of a part has to do with the rest. -/
theorem honours_iff (fits : totalTokens taken ≤ budget) : Honours (taken ++ rest) budget (pyramidOf budget taken) ↔
    ∀ cut ∈ rest,
      (cut.layer = .l0Critical → budget < totalTokens (ofLayer .l0Critical (taken ++ rest))) ∧
      ((∃ other ∈ taken, cut.layer.priority < other.layer.priority) →
        budget < totalTokens (upTo cut.layer taken) + tokensOfEntry cut) := by
  have left (layer : ContextLayer) : (ofLayer layer (taken ++ rest)).drop ((pyramidOf budget taken).layers layer).length =
      ofLayer layer rest := by
    rw [ofLayer_append,pyramidOf,List.length_map,List.drop_left]
  constructor
  · intro honours cut member
    have own : cut ∈ ofLayer cut.layer rest := mem_ofLayer.mpr ⟨member, rfl⟩
    constructor
    · intro critical
      by_contra small
      have whole := congrArg List.length (honours.critical (Nat.le_of_not_lt small))
      rw [pyramidOf,List.length_map,List.length_map,ofLayer_append,List.length_append] at whole
      rw [critical] at own
      have some_ := List.length_pos_of_mem own
      omega
    · rintro ⟨other, inside, before⟩
      have some_ : (pyramidOf budget taken).layers other.layer ≠ [] := by
        have member' : other ∈ ofLayer other.layer taken := mem_ofLayer.mpr ⟨inside, rfl⟩
        exact List.ne_nil_of_mem (List.mem_map_of_mem member')
      rw [← tokensUpTo_pyramidOf]
      exact honours.ordered cut.layer other.layer before some_ cut ((left cut.layer).symm ▸ own)
  · intro fair
    refine ⟨tokens_pyramidOf.trans_le fits, tokens_pyramidOf.symm, ?_, ?_, ?_⟩
    · intro layer
      rw [ofLayer_append,List.map_append]
      exact List.prefix_append _ _
    · intro small
      have none_ : ofLayer .l0Critical rest = [] := by
        refine List.eq_nil_iff_forall_not_mem.mpr ?_
        intro cut member
        obtain ⟨inside, critical⟩ := mem_ofLayer.mp member
        exact absurd ((fair cut inside).1 critical) (Nat.not_lt.mpr small)
      rw [ofLayer_append,none_,List.append_nil]
      rfl
    · intro layer later before some_ cut member
      rw [left,mem_ofLayer] at member
      obtain ⟨inside, rfl⟩ := member
      obtain ⟨text, there⟩ := List.exists_mem_of_ne_nil _ some_
      obtain ⟨other, member', _⟩ := List.mem_map.mp there
      obtain ⟨taken_, rfl⟩ := mem_ofLayer.mp member'
      rw [tokensUpTo_pyramidOf]
      exact (fair cut inside).2 ⟨other, taken_, before⟩

/-- A session's pyramid honours the order of the layers exactly when its messages are cut fairly. -/
theorem pyramid_honours_iff (session : OmniSession) (budget : Nat) :
    Honours session.messages budget (buildFromSession session budget) ↔ CutFairly session.messages budget := by
  have fits : totalTokens (fitting tokensOfEntry budget 0 session.messages) ≤ budget := by
    have within : 0 + ((fitting tokensOfEntry budget 0 session.messages).map tokensOfEntry).sum ≤ budget :=
      fitting_le (Nat.zero_le budget)
    rwa [Nat.zero_add] at within
  obtain ⟨rest, split⟩ : fitting tokensOfEntry budget 0 session.messages <+: session.messages := fitting_prefix
  rw [buildFromSession_eq]
  generalize taken : fitting tokensOfEntry budget 0 session.messages = part at fits split
  rw [← split,honours_iff fits]
  constructor
  · intro fair before msg behind cut below full
    have same : fitting tokensOfEntry budget 0 (before ++ msg :: behind) = before := by
      refine fitting_cut ?_ ?_
      · rwa [Nat.zero_add]
      · rwa [Nat.zero_add]
    rw [← split,cut,same] at taken
    subst taken
    obtain rfl := List.append_cancel_left cut
    exact fair
  · intro fair cut member
    cases rest with
    | nil => cases member
    | cons msg behind =>
      have full : budget < 0 + ((part ++ [msg]).map tokensOfEntry).sum := by
        have front : part ++ [msg] <+: session.messages := ⟨behind, by rw [← split,List.append_assoc]; rfl⟩
        have longer : (fitting tokensOfEntry budget 0 session.messages).length < (part ++ [msg]).length := by
          rw [taken,List.length_append]
          exact Nat.lt_succ_self _
        exact fitting_maximal front longer
      rw [Nat.zero_add,← totalTokens,totalTokens_append] at full
      exact fair part msg behind rfl fits full cut member

end

/-- A session of the messages, with nothing else of note. -/
def sessionOf (messages : List UnifiedMessage) : OmniSession :=
  { OmniSession.new "zaion1ab" 100 ⟨"s-1", sampleNow⟩ with messages }

/-- A message of a layer, from a channel named by one letter. -/
def layerMessage (layer : ContextLayer) (content : String) : UnifiedMessage :=
  ⟨"m-1", .cli, "c", "user", content, none, sampleNow, 0, layer⟩

/-- A word for the archive, a long question, and a rule. -/
def ruleLast : OmniSession := sessionOf
  [layerMessage .l4Archive "old note", layerMessage .l1Recent "a question that is far too long",
    layerMessage .l0Critical "rule"]

/-- The rule would fit on its own, and is left out behind a question that does not. -/
theorem rule_left_out : totalTokens (ofLayer .l0Critical ruleLast.messages) ≤ 8 ∧
    (buildFromSession ruleLast 8).layers .l4Archive = ["[c] user: old note"] ∧
    (buildFromSession ruleLast 8).layers .l0Critical = [] ∧
    ¬ Honours ruleLast.messages 8 (buildFromSession ruleLast 8) := by
  have small : totalTokens (ofLayer .l0Critical ruleLast.messages) ≤ 8 := by decide
  have none_ : (buildFromSession ruleLast 8).layers .l0Critical = [] := by decide
  refine ⟨small, by decide, none_, ?_⟩
  intro honours
  have whole := congrArg List.length (honours.critical small)
  rw [none_] at whole
  exact absurd whole (by decide)

end Zaion.Omni
