import Mathlib.Algebra.Order.Field.Rat
import Mathlib.Tactic.Ring
import Zaion.Lib.Json

/-! What a provider reports of the tokens of a call, in the two shapes there are, what is read of either, and what the
call is billed. Amounts of money are exact. -/
namespace Zaion.Pricing

structure CanonicalUsage where
  inputTokens : Nat
  outputTokens : Nat
  cacheReadTokens : Nat
  cacheWriteTokens : Nat
  reasoningTokens : Nat
  deriving DecidableEq, Repr

def maxU64 : Nat := 18446744073709551615

/-- `u64` addition; nothing when it overflows. -/
def addU64 (a b : Nat) : Option Nat := if a + b ≤ maxU64 then some (a + b) else none

/-- `CanonicalUsage::total_tokens`. -/
def CanonicalUsage.totalTokens (u : CanonicalUsage) : Option Nat :=
  (addU64 u.inputTokens u.outputTokens).bind fun sum => addU64 sum u.reasoningTokens

/-- The first of the keys that holds a number. -/
def extractU64 (obj : Json) (keys : List String) : Nat :=
  (keys.findSome? fun key => (obj.get key).bind Json.asU64).getD 0

/-- `normalize_usage`. -/
def normalizeUsage (raw : Json) : CanonicalUsage :=
  let usageObj := (raw.get "usage").getD raw
  let cached := extractU64 usageObj ["cache_read_input_tokens", "cached_tokens", "cache_read_tokens"]
  { inputTokens := extractU64 usageObj ["input_tokens", "prompt_tokens", "promptTokens"]
    outputTokens := extractU64 usageObj ["output_tokens", "completion_tokens", "completionTokens"]
    cacheReadTokens :=
      if cached = 0 then
        match usageObj.get "prompt_tokens_details" with
        | some details => extractU64 details ["cached_tokens"]
        | none => 0
      else cached
    cacheWriteTokens := extractU64 usageObj ["cache_creation_input_tokens", "cache_write_tokens"]
    reasoningTokens :=
      match usageObj.get "completion_tokens_details" with
      | some details => extractU64 details ["reasoning_tokens"]
      | none => extractU64 usageObj ["reasoning_tokens"] }

structure PricingEntry where
  provider : String
  inputPerMillion : ℚ
  outputPerMillion : ℚ
  cacheReadPerMillion : ℚ
  cacheWritePerMillion : ℚ
  reasoningPerMillion : ℚ

structure CostResult where
  provider : String
  model : String
  inputCostUsd : ℚ
  outputCostUsd : ℚ
  cacheReadCostUsd : ℚ
  cacheWriteCostUsd : ℚ
  reasoningCostUsd : ℚ
  totalCostUsd : ℚ
  cacheSavingsUsd : ℚ

/-- Reasoning has its own rate or that of the output. -/
def PricingEntry.reasoningRate (entry : PricingEntry) : ℚ :=
  if 0 < entry.reasoningPerMillion then entry.reasoningPerMillion else entry.outputPerMillion

/-- What a number of tokens costs. -/
def cost (tokens : Nat) (rate : ℚ) : ℚ := tokens * rate / 1000000

/-- `estimate_usage_cost`, on any table of prices. -/
def estimateUsageCost (lookupPricing : String → Option PricingEntry) (usage : CanonicalUsage) (model : String) :
    Option CostResult := do
  let entry ← lookupPricing model
  let inputCost := cost usage.inputTokens entry.inputPerMillion
  let outputCost := cost usage.outputTokens entry.outputPerMillion
  let cacheReadCost := cost usage.cacheReadTokens entry.cacheReadPerMillion
  let cacheWriteCost := cost usage.cacheWriteTokens entry.cacheWritePerMillion
  let reasoningCost := cost usage.reasoningTokens entry.reasoningRate
  some {
    provider := entry.provider
    model := model
    inputCostUsd := inputCost
    outputCostUsd := outputCost
    cacheReadCostUsd := cacheReadCost
    cacheWriteCostUsd := cacheWriteCost
    reasoningCostUsd := reasoningCost
    totalCostUsd := inputCost + outputCost + cacheReadCost + cacheWriteCost + reasoningCost
    cacheSavingsUsd :=
      if 0 < entry.cacheReadPerMillion then
        cost usage.cacheReadTokens (entry.inputPerMillion - entry.cacheReadPerMillion)
      else 0 }

/-- A call: fresh and cached input, visible output and reasoning. -/
structure Call where
  fresh : Nat
  cached : Nat
  visible : Nat
  reasoning : Nat
  deriving DecidableEq, Repr

namespace Call

/-- The prompt with its cached part, the completion with its reasoning. -/
def openAi (call : Call) : Json := .obj [
  ("prompt_tokens", .nat (call.fresh + call.cached)),
  ("completion_tokens", .nat (call.visible + call.reasoning)),
  ("prompt_tokens_details", .obj [("cached_tokens", .nat call.cached)]),
  ("completion_tokens_details", .obj [("reasoning_tokens", .nat call.reasoning)])]

/-- Each kind apart. -/
def anthropic (call : Call) : Json := .obj [
  ("input_tokens", .nat call.fresh),
  ("cache_read_input_tokens", .nat call.cached),
  ("output_tokens", .nat call.visible),
  ("reasoning_tokens", .nat call.reasoning)]

/-- Each token in its own category. -/
def counted (call : Call) : CanonicalUsage := ⟨call.fresh, call.visible, call.cached, 0, call.reasoning⟩

/-- What the call costs when each token is billed once. -/
def price (call : Call) (entry : PricingEntry) : ℚ :=
  cost call.fresh entry.inputPerMillion + cost call.visible entry.outputPerMillion +
    cost call.cached entry.cacheReadPerMillion + cost call.reasoning entry.reasoningRate

variable (call : Call)

/-- What is read of the object of usage itself. -/
theorem normalizeUsage_bare (raw : Json) (bare : raw.get "usage" = none) : normalizeUsage raw = {
    inputTokens := extractU64 raw ["input_tokens", "prompt_tokens", "promptTokens"]
    outputTokens := extractU64 raw ["output_tokens", "completion_tokens", "completionTokens"]
    cacheReadTokens :=
      if extractU64 raw ["cache_read_input_tokens", "cached_tokens", "cache_read_tokens"] = 0 then
        ((raw.get "prompt_tokens_details").map fun details => extractU64 details ["cached_tokens"]).getD 0
      else extractU64 raw ["cache_read_input_tokens", "cached_tokens", "cache_read_tokens"]
    cacheWriteTokens := extractU64 raw ["cache_creation_input_tokens", "cache_write_tokens"]
    reasoningTokens :=
      ((raw.get "completion_tokens_details").map fun details => extractU64 details ["reasoning_tokens"]).getD
        (extractU64 raw ["reasoning_tokens"]) } := by
  simp only [normalizeUsage,bare,Option.getD_none]
  cases raw.get "prompt_tokens_details" <;> cases raw.get "completion_tokens_details" <;> rfl

theorem normalize_anthropic : normalizeUsage call.anthropic = call.counted := by
  rw [normalizeUsage_bare call.anthropic rfl]
  have read : extractU64 call.anthropic ["cache_read_input_tokens", "cached_tokens", "cache_read_tokens"] = call.cached := rfl
  have unnested : call.anthropic.get "prompt_tokens_details" = none := rfl
  simp only [CanonicalUsage.mk.injEq,counted,read,unnested]
  refine ⟨rfl, rfl, ?_, rfl, rfl⟩
  split
  next none_ => exact none_.symm
  next => rfl

/-- The totals are taken as they are, and their parts once more. -/
theorem normalize_openAi : normalizeUsage call.openAi =
    ⟨call.fresh + call.cached, call.visible + call.reasoning, call.cached, 0, call.reasoning⟩ := by
  rw [normalizeUsage_bare call.openAi rfl]
  rfl

/-- Both shapes are read the same, each token in one category; the bill is of each token once, and the total is at
most what was prompted and completed. -/
structure Independent : Prop where
  same : normalizeUsage call.openAi = normalizeUsage call.anthropic
  once : normalizeUsage call.openAi = call.counted
  bill : ∀ lookupPricing model result, estimateUsageCost lookupPricing (normalizeUsage call.openAi) model = some result →
    ∃ entry, lookupPricing model = some entry ∧ result.totalCostUsd = call.price entry
  total : ∀ total, (normalizeUsage call.openAi).totalTokens = some total →
    total ≤ (call.fresh + call.cached) + (call.visible + call.reasoning)

variable {call}

theorem openAi_counted_iff : normalizeUsage call.openAi = call.counted ↔ call.cached = 0 ∧ call.reasoning = 0 := by
  rw [normalize_openAi]
  simp [counted]

theorem estimate_ok {lookupPricing : String → Option PricingEntry} {usage : CanonicalUsage} {model : String}
    {result : CostResult} (billed : estimateUsageCost lookupPricing usage model = some result) :
    ∃ entry, lookupPricing model = some entry ∧ result.totalCostUsd = cost usage.inputTokens entry.inputPerMillion +
      cost usage.outputTokens entry.outputPerMillion + cost usage.cacheReadTokens entry.cacheReadPerMillion +
      cost usage.cacheWriteTokens entry.cacheWritePerMillion + cost usage.reasoningTokens entry.reasoningRate := by
  obtain ⟨entry, found, made⟩ := Option.bind_eq_some_iff.mp billed
  cases made
  exact ⟨entry, found, rfl⟩

/-- The cached and the reasoning tokens are billed once more, at the full rates of input and output. -/
theorem openAi_overcharge {lookupPricing : String → Option PricingEntry} {model : String} {result : CostResult}
    (billed : estimateUsageCost lookupPricing (normalizeUsage call.openAi) model = some result) :
    ∃ entry, lookupPricing model = some entry ∧ result.totalCostUsd =
      call.price entry + cost call.cached entry.inputPerMillion + cost call.reasoning entry.outputPerMillion := by
  obtain ⟨entry, found, total⟩ := estimate_ok billed
  refine ⟨entry, found, ?_⟩
  rw [total,normalize_openAi]
  simp only [price,cost]
  push_cast
  ring

theorem addU64_some {a b sum : Nat} (added : addU64 a b = some sum) : sum = a + b := by
  unfold addU64 at added
  split at added
  · exact (Option.some.inj added).symm
  · cases added

theorem totalTokens_some {u : CanonicalUsage} {total : Nat} (summed : u.totalTokens = some total) :
    total = u.inputTokens + u.outputTokens + u.reasoningTokens := by
  obtain ⟨sum, first, second⟩ := Option.bind_eq_some_iff.mp summed
  rw [addU64_some second,addU64_some first]

/-- The total is that of the prompt and the completion, and the reasoning again. -/
theorem openAi_total {total : Nat} (summed : (normalizeUsage call.openAi).totalTokens = some total) :
    total = (call.fresh + call.cached) + (call.visible + call.reasoning) + call.reasoning := by
  rw [totalTokens_some summed,normalize_openAi]

/-- The shapes agree exactly on calls without cached input and without reasoning. -/
theorem independent_iff (call : Call) : call.Independent ↔ call.cached = 0 ∧ call.reasoning = 0 := by
  constructor
  · intro independent
    exact openAi_counted_iff.mp independent.once
  · intro plain
    have counted := openAi_counted_iff.mpr plain
    refine ⟨counted.trans call.normalize_anthropic.symm, counted, fun lookupPricing model result billed => ?_,
      fun total summed => ?_⟩
    · obtain ⟨entry, found, overcharge⟩ := openAi_overcharge billed
      refine ⟨entry, found, ?_⟩
      rw [overcharge,plain.1,plain.2]
      simp [cost]
    · have sum := openAi_total summed
      rw [plain.2] at sum ⊢
      exact sum.le

/-- 200 fresh and 800 cached tokens, 150 shown and 50 reasoned are 1200 in all. -/
theorem cached_call_fails : ¬ (Call.mk 200 800 150 50).Independent ∧
    normalizeUsage (Call.mk 200 800 150 50).openAi ≠ normalizeUsage (Call.mk 200 800 150 50).anthropic ∧
    (normalizeUsage (Call.mk 200 800 150 50).openAi).totalTokens = some 1250 := by
  refine ⟨fun independent => ?_, ?_, ?_⟩
  · exact absurd (openAi_counted_iff.mp independent.once).1 (by decide)
  · rw [normalize_openAi,normalize_anthropic]
    decide
  · rw [normalize_openAi]
    rfl

end Call

end Zaion.Pricing
