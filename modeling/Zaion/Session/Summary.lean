import Zaion.Lib.Size
import Zaion.Session.Compaction

/-! The size of the summary turn over repeated compaction. A pass puts the whole of the previous summary
into the next one. -/
namespace Zaion.Session

open Lib

namespace ContextCompressor

/-- `restore_previous_summary`. -/
def restorePreviousSummary (compressor : ContextCompressor) (summary : String) : ContextCompressor :=
  if trim summary ≠ "" then { compressor with previousSummary := some (trim summary) } else compressor

/-! The structured text of a stretch of turns is of bounded size -/

/-- At most so many bytes. -/
def Within (text : String) (n : Nat) : Prop := text.utf8ByteSize ≤ n

/-- A literal is its characters. -/
theorem Within.literal (text : List Char) : Within (String.ofList text) (text.map Char.utf8Size).sum :=
  Nat.le_of_eq (utf8ByteSize_ofList text)

theorem Within.append {a b : String} {m n : Nat} (first : Within a m) (second : Within b n) : Within (a ++ b) (m + n) := by
  rw [Within,String.utf8ByteSize_append]
  exact Nat.add_le_add first second

theorem Within.decimal {n : Nat} (below : n < 10 ^ 20) : Within (toString n) 80 := decimal_size_le (by decide) below

theorem Within.clipChars (text : String) (n : Nat) : Within (clipChars text n) (4 * n + 3) := by
  rw [Within,ContextCompressor.clipChars]
  split
  · have bytes := utf8ByteSize_le text
    omega
  · have bytes := utf8ByteSize_le (String.ofList (text.toList.take n))
    rw [String.toList_ofList,List.length_take] at bytes
    rw [String.utf8ByteSize_append,show "...".utf8ByteSize = 3 from rfl]
    omega

theorem Within.bullets {items : List String} {n : Nat} (each : ∀ item ∈ items, Within item n) (count : Nat) :
    Within (bullets (items.take count)) (count * (n + 3)) := by
  rw [Within,ContextCompressor.bullets,join_size,List.map_map]
  refine (sum_le_of_each (n := n + 3) ?_).trans ?_
  · intro size member
    obtain ⟨item, taken, rfl⟩ := List.mem_map.mp member
    have bound : item.utf8ByteSize ≤ n := each item (List.mem_of_mem_take taken)
    simp only [Function.comp_apply,String.utf8ByteSize_append,show "- ".utf8ByteSize = 2 from rfl,
      show "\n".utf8ByteSize = 1 from rfl]
    omega
  · rw [List.length_map]
    exact Nat.mul_le_mul_right _ (List.length_take_le _ _)

set_option maxRecDepth 4000 in
theorem summaryPrefix_size : summaryPrefix.utf8ByteSize = 453 := (utf8ByteSize_ofList _).trans (by decide)

theorem withSummaryPrefix_size_le (text : String) : (withSummaryPrefix text).utf8ByteSize ≤ text.utf8ByteSize + 455 := by
  have trimmed := trim_size_le text
  have long := summaryPrefix_size
  unfold withSummaryPrefix
  simp only
  split
  · omega
  split
  · have rest : (String.ofList ((trim text).toList.drop "[CONTEXT COMPACTION]".length)).utf8ByteSize ≤
        (trim text).utf8ByteSize := by
      apply utf8ByteSize_mono
      rw [String.toList_ofList]
      exact List.drop_sublist _ _
    rw [String.utf8ByteSize_append]
    omega
  split
  · omega
  · rw [String.utf8ByteSize_append,String.utf8ByteSize_append,show "\n\n".utf8ByteSize = 2 from rfl]
    omega

/-- The text of a chosen turn, or what stands for it. -/
theorem Within.chosen {turn : Option String} {shown : String → String} {absent : String} {n : Nat}
    (some_ : ∀ text, Within (shown text) n) {k : Nat} (none_ : Within absent k) (short : k ≤ n) :
    Within (match turn with | some text => shown text | none => absent) n := by
  cases turn with
  | none => exact Nat.le_trans none_ short
  | some text => exact some_ text

/-- A section that lists the first items, or says that there are none. -/
theorem Within.section_ {items : List String} {absent ending : String} {k n : Nat} (each : ∀ item ∈ items, Within item n)
    (count : Nat) (closes : Within ending 1) (none_ : Within absent k) (short : k ≤ count * (n + 3) + 1) :
    Within (if items = [] then absent else ContextCompressor.bullets (items.take count) ++ ending) (count * (n + 3) + 1) := by
  split
  · exact Nat.le_trans none_ short
  · exact (Within.bullets each count).append closes

theorem Within.listed {items : List String} {absent : String} {k n : Nat} (each : ∀ item ∈ items, Within item n)
    (count : Nat) (none_ : Within absent k) (short : k ≤ count * (n + 3)) :
    Within (if items = [] then absent else ContextCompressor.bullets (items.take count)) (count * (n + 3)) := by
  split
  · exact Nat.le_trans none_ short
  · exact Within.bullets each count

theorem withSummaryPrefix_within {text : String} {m n : Nat} (body : Within text m) (fits : m + 455 ≤ n) :
    (withSummaryPrefix text).utf8ByteSize ≤ n :=
  (withSummaryPrefix_size_le text).trans ((Nat.add_le_add_right body 455).trans fits)

set_option maxRecDepth 2000 in
theorem fallback_size {middle : List Turn} {prunedToolOutputs summaryBudgetTokens : Nat} (turns : middle.length < 10 ^ 20)
    (outputs : prunedToolOutputs < 10 ^ 20) (tokens : summaryBudgetTokens < 10 ^ 20) :
    (buildFallbackSummary middle prunedToolOutputs summaryBudgetTokens).utf8ByteSize ≤ 40000 := by
  have clipped : ∀ (marked : Turn → Bool) n, ∀ item ∈ (middle.filter marked).map (fun turn => clipChars turn.content n),
      Within item (4 * n + 3) := by
    intro marked n item member
    obtain ⟨turn, _, rfl⟩ := List.mem_map.mp member
    exact Within.clipChars _ _
  have spoken : ∀ role, ((middle.filter (fun turn => decide (turn.role = role))).map Turn.content).length < 10 ^ 20 := by
    intro role
    rw [List.length_map]
    exact (List.length_filter_le _ _).trans_lt turns
  have lit := Within.literal
  have asked : ∀ text, Within (clipChars text 260 ++ "\n\n") _ := fun text => (Within.clipChars text 260).append (lit _)
  have said : ∀ text, Within ("- " ++ clipChars text 260 ++ "\n") _ :=
    fun text => ((lit _).append (.clipChars text 260)).append (lit _)
  have left : ∀ text, Within ("- " ++ clipChars text 260 ++ "\n\n") _ :=
    fun text => ((lit _).append (.clipChars text 260)).append (lit _)
  have cleared : Within (if 0 < prunedToolOutputs then "- Pruned tool outputs: " ++ toString prunedToolOutputs ++
      " old verbose result(s) replaced with placeholders\n" else "") 200 := by
    split
    · exact Nat.le_trans (((lit _).append (.decimal outputs)).append (lit _)) (by decide)
    · exact Nat.zero_le _
  unfold buildFallbackSummary
  refine withSummaryPrefix_within (lit _ |>.append (.chosen asked (lit _) (by decide)) |>.append (lit _)
    |>.append (.chosen asked (lit _) (by decide)) |>.append (lit _) |>.append (lit _) |>.append (lit _)
    |>.append (lit _) |>.append (lit _) |>.append (lit _) |>.append (.decimal (spoken _)) |>.append (lit _)
    |>.append (lit _) |>.append (.decimal (spoken _)) |>.append (lit _)
    |>.append (lit _) |>.append (.decimal (spoken _)) |>.append (lit _) |>.append cleared
    |>.append (lit _) |>.append (.chosen said (lit _) (by decide)) |>.append (lit _) |>.append (lit _)
    |>.append (lit _) |>.append (.section_ (clipped _ _) _ (lit _) (lit _) (by decide))
    |>.append (lit _) |>.append (.section_ (clipped _ _) _ (lit _) (lit _) (by decide))
    |>.append (lit _) |>.append (.section_ (clipped _ _) _ (lit _) (lit _) (by decide))
    |>.append (lit _) |>.append (.section_ (clipped _ _) _ (lit _) (.chosen left (lit _) (by decide)) (by decide))
    |>.append (lit _) |>.append (lit _) |>.append (.decimal turns) |>.append (lit _)
    |>.append (lit _) |>.append (.decimal outputs) |>.append (lit _)
    |>.append (lit _) |>.append (.decimal tokens) |>.append (lit _)
    |>.append (.listed (clipped _ _) _ (lit _) (by decide))) ?_
  decide

/-! A merged summary holds the previous one and the structured text whole -/

theorem size_append {a b : String} {m n : Nat} (first : a.utf8ByteSize = m) (second : b.utf8ByteSize = n) :
    (a ++ b).utf8ByteSize = m + n := by
  rw [String.utf8ByteSize_append,first,second]

theorem withSummaryPrefix_visible {text : String} (opens : text.toList.head? = some '#')
    (closes : text.toList.getLast? = some '.') : withSummaryPrefix text = summaryPrefix ++ "\n\n" ++ text := by
  have bare : ∀ start : String, start.toList.head? = some '[' → ¬startsWithText text start = true := by
    intro start bracket starts
    obtain ⟨rest, same⟩ := of_decide_eq_true starts
    rw [← same,List.head?_append,bracket] at opens
    cases opens
  have nonempty : text ≠ "" := by
    rintro rfl
    cases opens
  unfold withSummaryPrefix
  rw [trim_of_visible opens closes (by decide) (by decide),if_neg (bare _ (congrArg List.head? String.toList_ofList)),
    if_neg (bare _ (congrArg List.head? String.toList_ofList)),if_neg nonempty]

variable (previous fallback : String)

theorem mergedFallbackSummary_opens : (mergedFallbackSummary previous fallback).toList.head? = some '#' := by
  unfold mergedFallbackSummary
  simp only [String.toList_append,List.head?_append,Option.or_eq_some_iff]
  repeat' with_reducible left
  exact congrArg List.head? String.toList_ofList

theorem mergedFallbackSummary_closes : (mergedFallbackSummary previous fallback).toList.getLast? = some '.' := by
  unfold mergedFallbackSummary
  rw [String.toList_append,List.getLast?_append,Option.or_eq_some_iff]
  left
  exact congrArg List.getLast? String.toList_ofList

set_option maxRecDepth 2000 in
theorem mergedFallbackSummary_size :
    (mergedFallbackSummary previous fallback).utf8ByteSize = previous.utf8ByteSize + fallback.utf8ByteSize + 757 := by
  have lit := utf8ByteSize_ofList
  have fixed : (mergedFallbackSummary "" "").utf8ByteSize = 757 := by
    unfold mergedFallbackSummary
    exact (size_append (size_append (size_append (size_append (size_append (size_append (size_append (size_append
      (size_append (size_append (size_append (lit _) (lit _)) (lit _)) (lit [])) (lit _)) (lit [])) (lit _)) (lit _)) (lit _))
      (lit _)) (lit _)) (lit _)).trans (by decide)
  unfold mergedFallbackSummary at fixed ⊢
  simp only [String.utf8ByteSize_append,String.utf8ByteSize_empty] at fixed ⊢
  omega

theorem merged_size : (withSummaryPrefix (mergedFallbackSummary previous fallback)).utf8ByteSize =
    previous.utf8ByteSize + fallback.utf8ByteSize + 1212 := by
  rw [withSummaryPrefix_visible (mergedFallbackSummary_opens _ _) (mergedFallbackSummary_closes _ _),
    String.utf8ByteSize_append,String.utf8ByteSize_append,summaryPrefix_size,mergedFallbackSummary_size,
    show "\n\n".utf8ByteSize = 2 from rfl]
  omega

end ContextCompressor

open ContextCompressor

/-- What can happen to a compressor where no provider writes summaries. -/
inductive CompactionOp where
  | compress (history : List Turn) (tokenBudget : Nat) (force : Bool)
  | restore (summary : String)
  | renew

/-- A pass of a run, with the compressor it starts from. -/
structure CompactionPass where
  compressor : ContextCompressor
  history : List Turn
  tokenBudget : Nat
  force : Bool

namespace CompactionOp

def apply (compressor : ContextCompressor) : CompactionOp → ContextCompressor
  | compress history tokenBudget force => (compressor.compressInternal history tokenBudget none force).1
  | restore summary => compressor.restorePreviousSummary summary
  | renew => ⟨compressor.config, none⟩

def pass? (compressor : ContextCompressor) : CompactionOp → Option CompactionPass
  | compress history tokenBudget force => some ⟨compressor, history, tokenBudget, force⟩
  | _ => none

theorem apply_config (op : CompactionOp) (compressor : ContextCompressor) : (op.apply compressor).config = compressor.config := by
  cases op with
  | compress history tokenBudget force =>
    by_cases compresses : compressor.Compresses history tokenBudget force
    · rw [apply,(compressInternal_compressed none compresses).1]
    · rw [apply,compressInternal_unchanged compresses]
  | restore summary =>
    rw [apply,restorePreviousSummary]
    split <;> rfl
  | renew => rfl

end CompactionOp

/-- The passes of a run. -/
def passes (compressor : ContextCompressor) : List CompactionOp → List CompactionPass
  | [] => []
  | op :: later => (op.pass? compressor).toList ++ passes (op.apply compressor) later

namespace CompactionPass

variable (pass : CompactionPass)

def result : CompressedContext := pass.compressor.pass pass.history pass.tokenBudget none pass.force

def Compresses : Prop := pass.compressor.Compresses pass.history pass.tokenBudget pass.force

/-- The structured text of the turns that go. -/
def structured : String :=
  let middle := ((pass.compressor.prunedHistory pass.history).take
    (pass.compressor.cutOf pass.history pass.tokenBudget pass.force)).drop (pass.compressor.headOf pass.history)
  buildFallbackSummary middle (pruneOldToolOutputs pass.history pass.compressor.config.protectLastNTurns).2
    (computeSummaryBudget pass.compressor.config middle)

/-- A summary turn that is put in is of at most `max_summary_tokens`. -/
def Bounded : Prop := pass.result.wasCompressed = true →
  ∀ turn, pass.result.turns[pass.result.protectedHeadTurns]? = some turn → turn.tokenEstimate ≤ pass.compressor.config.maxSummaryTokens

/-- The summary of an earlier pass leaves room for the structured text and the text around both. -/
def HasRoom : Prop := pass.Compresses → ∀ previous, pass.compressor.previousSummary = some previous →
  previous.utf8ByteSize + pass.structured.utf8ByteSize + 1218 ≤ 4 * pass.compressor.config.maxSummaryTokens + 3

variable {pass}

theorem summaryOf_none (first : pass.compressor.previousSummary = none) :
    (pass.compressor.summaryOf pass.history pass.tokenBudget none pass.force).1 = pass.structured := by
  unfold summaryOf structured
  rw [first]
  simp only [summarize]

theorem summaryOf_some {previous : String} (again : pass.compressor.previousSummary = some previous) :
    (pass.compressor.summaryOf pass.history pass.tokenBudget none pass.force).1 =
      withSummaryPrefix (mergedFallbackSummary previous pass.structured) := by
  unfold summaryOf structured
  rw [again]
  simp only [summarize]

theorem structured_size (length : pass.history.length < 2 ^ 64) (tokens : pass.compressor.config.maxSummaryTokens < 2 ^ 64) :
    pass.structured.utf8ByteSize ≤ 40000 := by
  unfold structured
  refine fallback_size ?_ ?_ ?_
  · rw [List.length_drop,List.length_take,prunedHistory_length]
    omega
  · have counted := List.countP_le_length (p := fun entry : Turn × Nat =>
      prunes (pass.history.length - pass.compressor.config.protectLastNTurns) entry.2 entry.1) (l := pass.history.zipIdx)
    rw [List.length_zipIdx] at counted
    simp only [pruneOldToolOutputs]
    omega
  · unfold computeSummaryBudget
    omega

theorem bounded_iff (compresses : pass.Compresses) : pass.Bounded ↔
    6 + (pass.compressor.summaryOf pass.history pass.tokenBudget none pass.force).1.utf8ByteSize ≤
      4 * pass.compressor.config.maxSummaryTokens + 3 := by
  obtain ⟨_, compressed, _, turns, head, _⟩ := compressInternal_compressed none compresses
  have length : ((pass.compressor.prunedHistory pass.history).take (pass.compressor.headOf pass.history)).length =
      pass.compressor.headOf pass.history := by
    rw [List.length_take,prunedHistory_length]
    exact Nat.min_eq_left (Nat.min_le_right _ _)
  have injected : pass.result.turns[pass.result.protectedHeadTurns]? =
      some ⟨"system", (pass.compressor.summaryOf pass.history pass.tokenBudget none pass.force).1⟩ := by
    rw [result,turns,head,List.getElem?_append_right (Nat.le_of_eq length),length,Nat.sub_self]
    rfl
  have role : "system".utf8ByteSize = 6 := rfl
  rw [Bounded,injected]
  constructor
  · intro bounded
    have small := bounded compressed _ rfl
    simp only [Turn.tokenEstimate,role] at small
    omega
  · intro small _ turn same
    obtain rfl := Option.some.inj same
    simp only [Turn.tokenEstimate,role]
    omega

/-- A pass keeps the bound just when the earlier summary leaves room. -/
theorem bounded_iff_hasRoom (large : 12000 ≤ pass.compressor.config.maxSummaryTokens)
    (tokens : pass.compressor.config.maxSummaryTokens < 2 ^ 64) (length : pass.history.length < 2 ^ 64) :
    pass.Bounded ↔ pass.HasRoom := by
  by_cases compresses : pass.Compresses
  swap
  · have idle : ¬pass.result.wasCompressed = true := fun compressed => compresses (pass_wasCompressed.mp compressed)
    exact ⟨fun _ called => absurd called compresses, fun _ compressed => absurd compressed idle⟩
  rw [bounded_iff compresses,HasRoom]
  cases earlier : pass.compressor.previousSummary with
  | none =>
    have small := structured_size length tokens
    rw [summaryOf_none earlier]
    constructor
    · rintro _ _ previous ⟨⟩
    · intro _
      omega
  | some previous =>
    rw [summaryOf_some earlier,merged_size]
    have sum : 6 + (previous.utf8ByteSize + pass.structured.utf8ByteSize + 1212) =
        previous.utf8ByteSize + pass.structured.utf8ByteSize + 1218 := by rw [Nat.add_comm,Nat.add_assoc]
    rw [sum]
    constructor
    · intro fits _ other again
      obtain rfl := Option.some.inj again
      exact fits
    · intro room
      exact room compresses previous rfl

end CompactionPass

theorem passes_config {compressor : ContextCompressor} {ops : List CompactionOp} {pass : CompactionPass}
    (member : pass ∈ passes compressor ops) : pass.compressor.config = compressor.config := by
  induction ops generalizing compressor with
  | nil => cases member
  | cons op later ih =>
    rcases List.mem_append.mp member with here | behind
    · cases op with
      | compress history tokenBudget force =>
        obtain rfl := List.mem_singleton.mp here
        rfl
      | restore summary => cases here
      | renew => cases here
    · rw [ih behind,op.apply_config]

/-- Over a whole run the summary turn stays bounded just when no pass finds a summary too long to be put
whole into the next one. -/
theorem summary_bounded (config : CompressorConfig) (ops : List CompactionOp) (large : 12000 ≤ config.maxSummaryTokens)
    (tokens : config.maxSummaryTokens < 2 ^ 64)
    (lengths : ∀ pass ∈ passes ⟨config, none⟩ ops, pass.history.length < 2 ^ 64) :
    (∀ pass ∈ passes ⟨config, none⟩ ops, pass.Bounded) ↔ ∀ pass ∈ passes ⟨config, none⟩ ops, pass.HasRoom := by
  refine forall₂_congr fun pass member => ?_
  have same : pass.compressor.config = config := passes_config member
  exact CompactionPass.bounded_iff_hasRoom (same ▸ large) (same ▸ tokens) (lengths pass member)

/-- A run over a short summary from an earlier process. -/
def restoredRun : List CompactionOp := [.restore "done", .compress toolHistory 1000 true]

theorem restored_pass : passes ⟨smallConfig, none⟩ restoredRun = [⟨⟨smallConfig, some "done"⟩, toolHistory, 1000, true⟩] := by
  have restored : CompactionOp.apply ⟨smallConfig, none⟩ (.restore "done") = ⟨smallConfig, some "done"⟩ := by
    have bare : trim "done" = "done" := by decide
    rw [CompactionOp.apply,restorePreviousSummary,bare,if_pos (by decide)]
  simp only [restoredRun,passes,restored]
  rfl

theorem restored_bounded : (passes ⟨smallConfig, none⟩ restoredRun).length = 1 ∧
    ∀ pass ∈ passes ⟨smallConfig, none⟩ restoredRun, pass.Bounded := by
  refine ⟨congrArg List.length restored_pass, (summary_bounded smallConfig restoredRun (by decide) (by decide) ?_).mpr ?_⟩
  · rw [restored_pass]
    intro pass member
    obtain rfl := List.mem_singleton.mp member
    decide
  · rw [restored_pass]
    intro pass member _ previous earlier
    obtain rfl := List.mem_singleton.mp member
    have short := @CompactionPass.structured_size ⟨⟨smallConfig, some "done"⟩, toolHistory, 1000, true⟩ (by decide)
      (by decide)
    obtain rfl := Option.some.inj earlier
    have done : "done".utf8ByteSize = 4 := rfl
    rw [done]
    exact Nat.le_trans (Nat.add_le_add_right (Nat.add_le_add_left short 4) 1218) (by decide)

/-! Forty-one passes over one short history -/

section
variable {compressor : ContextCompressor} {previous : String} {history : List Turn} {tokenBudget : Nat} {force : Bool}

theorem apply_compress (compresses : compressor.Compresses history tokenBudget force) :
    ((CompactionOp.compress history tokenBudget force).apply compressor).previousSummary =
      some (compressor.summaryOf history tokenBudget none force).1 :=
  congrArg ContextCompressor.previousSummary (compressInternal_compressed none compresses).1

/-- A pass over an earlier summary makes it longer. -/
theorem summary_grows (compresses : compressor.Compresses history tokenBudget force)
    (earlier : compressor.previousSummary = some previous) :
    ∃ next, ((CompactionOp.compress history tokenBudget force).apply compressor).previousSummary = some next ∧
      previous.utf8ByteSize + 1212 ≤ next.utf8ByteSize := by
  refine ⟨_, apply_compress compresses, ?_⟩
  let pass : CompactionPass := ⟨compressor, history, tokenBudget, force⟩
  have merged := @CompactionPass.summaryOf_some pass previous earlier
  simp only [pass] at merged
  rw [merged,merged_size]
  generalize (CompactionPass.structured _).utf8ByteSize = bytes
  omega

theorem small_compresses (small : compressor.config = smallConfig) : compressor.Compresses toolHistory 1000 true := by
  obtain ⟨config, _⟩ := compressor
  obtain rfl : config = smallConfig := small
  exact tool_compresses

theorem unbounded_after {n : Nat} (small : compressor.config = smallConfig) (earlier : compressor.previousSummary = some previous)
    (long : 46786 ≤ previous.utf8ByteSize + 1212 * n) :
    ∃ pass ∈ passes compressor (List.replicate (n + 1) (.compress toolHistory 1000 true)), ¬pass.Bounded := by
  induction n generalizing compressor previous with
  | zero =>
    let pass : CompactionPass := ⟨compressor, toolHistory, 1000, true⟩
    refine ⟨pass, List.mem_append_left _ (List.mem_singleton_self _), ?_⟩
    have compresses : pass.Compresses := small_compresses small
    have limit : pass.compressor.config.maxSummaryTokens = 12000 := congrArg CompressorConfig.maxSummaryTokens small
    rw [CompactionPass.bounded_iff compresses,CompactionPass.summaryOf_some earlier,merged_size,limit]
    generalize pass.structured.utf8ByteSize = bytes
    omega
  | succ n ih =>
    obtain ⟨next, later, grown⟩ := summary_grows (small_compresses small) earlier
    obtain ⟨pass, member, broken⟩ := ih ((CompactionOp.apply_config _ _).trans small) later (by omega)
    exact ⟨pass, List.mem_append_right _ member, broken⟩

end

/-- The limit is twelve thousand tokens, and the history six turns. -/
theorem summary_unbounded : smallConfig.maxSummaryTokens = 12000 ∧
    ¬∀ pass ∈ passes ⟨smallConfig, none⟩ (List.replicate 41 (.compress toolHistory 1000 true)), pass.Bounded := by
  refine ⟨rfl, fun bounded => ?_⟩
  have made := apply_compress tool_compresses
  have enough : 46786 ≤ 1212 * 39 := by decide
  obtain ⟨pass, member, broken⟩ := unbounded_after (CompactionOp.apply_config _ _) made (Nat.le_add_left_of_le enough)
  exact broken (bounded pass (List.mem_append_right _ member))

end Zaion.Session
