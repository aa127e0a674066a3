import Zaion.Session.Compressor
import Mathlib.Data.List.Basic
import Mathlib.Data.List.DropRight

/-! What a compaction pass keeps: a head, one summary turn and a tail. Between them nothing is lost
count of, but the pass that clears old tool outputs runs over the whole history first. -/
namespace Zaion.Session.ContextCompressor

variable (compressor : ContextCompressor) (history : List Turn) (tokenBudget : Nat) (force : Bool)

/-- Turns of the protected head. -/
def headOf : Nat := min compressor.config.protectFirstNTurns history.length

/-- Turns before it may be cleared. -/
def pruneBoundary : Nat := history.length - compressor.config.protectLastNTurns

def prunedHistory : List Turn := (pruneOldToolOutputs history compressor.config.protectLastNTurns).1

/-- Where the protected tail begins. -/
def cutOf : Nat := findTailStartByTokens compressor.config (compressor.prunedHistory history) (compressor.headOf history)
  (selectionBudget compressor.config (totalTokens history) tokenBudget force)

/-- The pass is called for. -/
def Triggered : Prop := history ≠ [] ∧ (force = true ∨ compressor.config.threshold tokenBudget < totalTokens history)

/-- It is, and there is something between head and tail. -/
def Compresses : Prop := compressor.Triggered history tokenBudget force ∧
  compressor.headOf history < compressor.cutOf history tokenBudget force

variable {compressor} {history} {tokenBudget} {force} {llmSummary : Option String}

/-! Clearing old tool outputs -/

theorem pruneTurn_eq_iff (boundary i : Nat) (turn : Turn) : pruneTurn boundary (turn, i) = turn ↔ prunes boundary i turn = false := by
  constructor
  · intro same
    by_contra pruned
    rw [Bool.not_eq_false] at pruned
    rw [pruneTurn,if_pos pruned] at same
    simp only [prunes,Bool.and_eq_true,decide_eq_true_eq] at pruned
    have short : turn.content = "[Old tool output cleared to save context space]" := by rw [← same]
    rw [short] at pruned
    exact absurd pruned.2 (by decide)
  · intro kept
    rw [pruneTurn,if_neg (by simp [kept])]

theorem prunedHistory_length : (compressor.prunedHistory history).length = history.length := by
  simp [prunedHistory,pruneOldToolOutputs]

theorem prunedHistory_getElem? (i : Nat) : (compressor.prunedHistory history)[i]? =
    history[i]?.map fun turn => pruneTurn (compressor.pruneBoundary history) (turn, i) := by
  simp [prunedHistory,pruneOldToolOutputs,pruneBoundary,List.getElem?_map,List.getElem?_zipIdx,Option.map_map,Function.comp_def]

/-- A turn that is not cleared stays. -/
theorem prunedHistory_kept {i : Nat} {turn : Turn} (at_ : history[i]? = some turn)
    (kept : prunes (compressor.pruneBoundary history) i turn = false) :
    (compressor.prunedHistory history)[i]? = some turn := by
  rw [prunedHistory_getElem?,at_,Option.map_some,(pruneTurn_eq_iff _ _ _).mpr kept]

/-- A stretch of the history stays as it was just when nothing in it is cleared. -/
theorem prunedHistory_agrees (inside : Nat → Prop) : (∀ i, inside i → (compressor.prunedHistory history)[i]? = history[i]?) ↔
    ∀ i turn, history[i]? = some turn → prunes (compressor.pruneBoundary history) i turn = true → ¬inside i := by
  constructor
  · intro agrees i turn at_ pruned within
    have same := agrees i within
    rw [prunedHistory_getElem?,at_,Option.map_some,Option.some.injEq,pruneTurn_eq_iff,pruned] at same
    cases same
  · intro none i within
    cases at_ : history[i]? with
    | none => rw [prunedHistory_getElem?,at_,Option.map_none]
    | some turn =>
      apply prunedHistory_kept at_
      cases pruned : prunes (compressor.pruneBoundary history) i turn with
      | false => rfl
      | true => exact absurd within (none i turn at_ pruned)

theorem prunedHistory_take (n : Nat) : (compressor.prunedHistory history).take n = history.take n ↔
    ∀ i, i < n → (compressor.prunedHistory history)[i]? = history[i]? := by
  rw [List.ext_getElem?_iff]
  constructor
  · intro same i below
    have at_ := same i
    rwa [List.getElem?_take_of_lt below,List.getElem?_take_of_lt below] at at_
  · intro agrees i
    rcases Nat.lt_or_ge i n with below | above
    · rw [List.getElem?_take_of_lt below,List.getElem?_take_of_lt below,agrees i below]
    · rw [List.getElem?_take_eq_none above,List.getElem?_take_eq_none above]

theorem prunedHistory_drop (n : Nat) : (compressor.prunedHistory history).drop n = history.drop n ↔
    ∀ i, n ≤ i → (compressor.prunedHistory history)[i]? = history[i]? := by
  rw [List.ext_getElem?_iff]
  constructor
  · intro same i above
    have at_ := same (i - n)
    rwa [List.getElem?_drop,List.getElem?_drop,Nat.add_sub_cancel' above] at at_
  · intro agrees i
    rw [List.getElem?_drop,List.getElem?_drop,agrees _ (Nat.le_add_right _ _)]

/-! The cut stays inside the history -/

theorem skipTools_le (headEnd i : Nat) : skipTools history headEnd i ≤ i := by
  induction i with
  | zero => exact Nat.le_refl 0
  | succ i ih =>
    rw [skipTools]
    split
    · exact Nat.le_succ_of_le ih
    · exact Nat.le_refl _

theorem alignTailBoundaryBackward_le {headEnd i : Nat} (inside : i ≤ history.length) :
    alignTailBoundaryBackward history i headEnd ≤ history.length := by
  have skipped : skipTools history headEnd i ≤ i := skipTools_le headEnd i
  rw [alignTailBoundaryBackward]
  split
  · exact Nat.min_le_right _ _
  · simp only
    split
    · exact skipped.trans inside
    · exact Nat.min_le_right _ _

theorem lastUserTurn_spec {headEnd i : Nat} (found : lastUserTurn history headEnd = some i) :
    headEnd ≤ i ∧ i < history.length ∧ roleAt history i = some "user" := by
  have member := List.mem_of_getLast? found
  simp only [List.mem_filter,List.mem_range,Bool.and_eq_true,decide_eq_true_eq] at member
  exact ⟨member.2.1, member.1, member.2.2⟩

theorem ensureLastUserTurnInTail_le (cut headEnd : Nat) : ensureLastUserTurnInTail history cut headEnd ≤ cut := by
  rw [ensureLastUserTurnInTail]
  split
  · exact Nat.le_refl _
  · split
    · exact Nat.le_refl _
    · omega

/-- Turns the tail holds at the least. -/
def tailFloor (config : CompressorConfig) (n headEnd : Nat) : Nat :=
  min (max (min config.protectLastNTurns (n - headEnd - if 2 < n - headEnd then 2 else 1)) 1) (n - headEnd)

/-- The cut found by tokens, not after the fallback and, where that can be, behind the head. -/
def clampCut (fallback headEnd cut : Nat) : Nat :=
  let cut := if fallback < cut then fallback else cut
  if cut ≤ headEnd then fallback else cut

theorem clampCut_le (fallback headEnd cut : Nat) : clampCut fallback headEnd cut ≤ fallback := by
  unfold clampCut
  simp only
  split <;> split <;> omega

theorem clampCut_gt {fallback headEnd : Nat} (room : headEnd < fallback) (cut : Nat) :
    headEnd < clampCut fallback headEnd cut := by
  unfold clampCut
  simp only
  split <;> split <;> omega

theorem clampCut_self (headEnd cut : Nat) : clampCut headEnd headEnd cut = headEnd := by
  unfold clampCut
  simp only
  split
  · rw [if_pos (Nat.le_refl _)]
  · split <;> omega

/-- The cut before it is moved to the start of a round of tools or to the last user turn. -/
def tokenCut (config : CompressorConfig) (history : List Turn) (headEnd tokenBudget : Nat) : Nat :=
  let n := history.length
  clampCut (n - tailFloor config n headEnd) headEnd (gatherTail history headEnd (tailFloor config n headEnd)
    (max (config.target (config.threshold tokenBudget)) 1) n 0 n)

theorem findTailStartByTokens_eq {config : CompressorConfig} {headEnd budget : Nat} (more : headEnd < history.length) :
    findTailStartByTokens config history headEnd budget = ensureLastUserTurnInTail history
      (alignTailBoundaryBackward history (tokenCut config history headEnd budget) headEnd) headEnd := by
  rw [findTailStartByTokens]
  simp only [if_neg (Nat.not_le.mpr more)]
  rfl

theorem findTailStartByTokens_le (config : CompressorConfig) (headEnd budget : Nat) :
    findTailStartByTokens config history headEnd budget ≤ history.length := by
  rcases Nat.lt_or_ge headEnd history.length with more | all
  · rw [findTailStartByTokens_eq more]
    exact (ensureLastUserTurnInTail_le _ _).trans
      (alignTailBoundaryBackward_le ((clampCut_le _ _ _).trans (Nat.sub_le _ _)))
  · rw [findTailStartByTokens]
    simp only [if_pos all,Nat.le_refl]

theorem cutOf_le : compressor.cutOf history tokenBudget force ≤ history.length := by
  have inside : compressor.cutOf history tokenBudget force ≤ (compressor.prunedHistory history).length :=
    findTailStartByTokens_le _ _ _
  rwa [prunedHistory_length] at inside

/-! One pass -/

theorem not_triggered : ¬compressor.Triggered history tokenBudget force ↔
    (force = false ∧ totalTokens history ≤ compressor.config.threshold tokenBudget) ∨ history = [] := by
  simp only [Triggered,not_and_or,not_or,not_not,Bool.not_eq_true,Nat.not_lt]
  exact or_comm

theorem compressInternal_unchanged (idle : ¬compressor.Compresses history tokenBudget force) :
    compressor.compressInternal history tokenBudget llmSummary force =
      (compressor, unchangedContext history (totalTokens history) (compressor.config.threshold tokenBudget)) := by
  unfold compressInternal
  simp only
  split
  · rfl
  · rename_i busy
    have called : compressor.Triggered history tokenBudget force := not_not.mp (mt not_triggered.mp busy)
    split
    · rfl
    · rename_i middle
      have head : min compressor.config.protectFirstNTurns (compressor.prunedHistory history).length =
          compressor.headOf history := by rw [prunedHistory_length,headOf]
      rw [← prunedHistory,head] at middle
      exact absurd ⟨called, Nat.not_le.mp middle⟩ idle

/-- The summary a pass makes, and its strategy. -/
def summaryOf (compressor : ContextCompressor) (history : List Turn) (tokenBudget : Nat) (llmSummary : Option String)
    (force : Bool) : String × String :=
  let middle := ((compressor.prunedHistory history).take (compressor.cutOf history tokenBudget force)).drop
    (compressor.headOf history)
  summarize compressor.previousSummary llmSummary middle
    (pruneOldToolOutputs history compressor.config.protectLastNTurns).2 (computeSummaryBudget compressor.config middle)

/-- The result of a pass. -/
def pass (compressor : ContextCompressor) (history : List Turn) (tokenBudget : Nat) (llmSummary : Option String)
    (force : Bool) : CompressedContext :=
  (compressor.compressInternal history tokenBudget llmSummary force).2

variable (llmSummary) in
theorem compressInternal_compressed (compresses : compressor.Compresses history tokenBudget force) :
    (compressor.compressInternal history tokenBudget llmSummary force).1 =
        { compressor with previousSummary := some (compressor.summaryOf history tokenBudget llmSummary force).1 } ∧
      (compressor.pass history tokenBudget llmSummary force).wasCompressed = true ∧
      (compressor.pass history tokenBudget llmSummary force).summaryText =
        (compressor.summaryOf history tokenBudget llmSummary force).1 ∧
      (compressor.pass history tokenBudget llmSummary force).turns =
        (compressor.prunedHistory history).take (compressor.headOf history) ++
          ⟨"system", (compressor.summaryOf history tokenBudget llmSummary force).1⟩ ::
            (compressor.prunedHistory history).drop (compressor.cutOf history tokenBudget force) ∧
      (compressor.pass history tokenBudget llmSummary force).protectedHeadTurns = compressor.headOf history ∧
      (compressor.pass history tokenBudget llmSummary force).protectedTailTurns =
        history.length - compressor.cutOf history tokenBudget force ∧
      (compressor.pass history tokenBudget llmSummary force).turnsPruned =
        compressor.cutOf history tokenBudget force - compressor.headOf history := by
  obtain ⟨called, middle⟩ := compresses
  have busy : ¬((force = false ∧ totalTokens history ≤ compressor.config.threshold tokenBudget) ∨ history = []) :=
    fun idle => not_triggered.mpr idle called
  have head : min compressor.config.protectFirstNTurns (compressor.prunedHistory history).length =
      compressor.headOf history := by rw [prunedHistory_length,headOf]
  have enough : ¬compressor.cutOf history tokenBudget force ≤ compressor.headOf history := Nat.not_le.mpr middle
  unfold pass compressInternal
  simp only [if_neg busy]
  rw [← prunedHistory,head,← cutOf,if_neg enough,prunedHistory_length]
  exact ⟨rfl, rfl, rfl, rfl, rfl, rfl, rfl⟩

theorem pass_unchanged (idle : ¬compressor.Compresses history tokenBudget force) :
    compressor.pass history tokenBudget llmSummary force =
      unchangedContext history (totalTokens history) (compressor.config.threshold tokenBudget) :=
  congrArg Prod.snd (compressInternal_unchanged idle)

theorem pass_wasCompressed : (compressor.pass history tokenBudget llmSummary force).wasCompressed = true ↔
    compressor.Compresses history tokenBudget force := by
  constructor
  · intro compressed
    by_contra idle
    rw [pass_unchanged idle] at compressed
    cases compressed
  · intro compresses
    exact (compressInternal_compressed llmSummary compresses).2.1

end Zaion.Session.ContextCompressor

namespace Zaion.Session

/-- Head, summary turn and tail of the history, and nothing of it counted twice or not at all. -/
structure CompressedContext.Partitions (context : CompressedContext) (history : List Turn) : Prop where
  turns : context.turns = history.take context.protectedHeadTurns ++
    ⟨"system", context.summaryText⟩ :: history.drop (history.length - context.protectedTailTurns)
  count : context.protectedHeadTurns + context.turnsPruned + context.protectedTailTurns = history.length

open ContextCompressor

variable {compressor : ContextCompressor} {history : List Turn} {tokenBudget : Nat} {llmSummary : Option String} {force : Bool}

theorem partitions_iff (compresses : compressor.Compresses history tokenBudget force) :
    (compressor.pass history tokenBudget llmSummary force).Partitions history ↔
      (compressor.prunedHistory history).take (compressor.headOf history) = history.take (compressor.headOf history) ∧
      (compressor.prunedHistory history).drop (compressor.cutOf history tokenBudget force) =
        history.drop (compressor.cutOf history tokenBudget force) := by
  obtain ⟨_, _, text, turns, head, tail, pruned⟩ := compressInternal_compressed llmSummary compresses
  have inside : compressor.cutOf history tokenBudget force ≤ history.length := cutOf_le
  have middle := compresses.2
  constructor
  · intro whole
    have same := whole.turns
    rw [turns,head,tail,text,Nat.sub_sub_self inside] at same
    obtain ⟨heads, rest⟩ := List.append_inj same (by simp only [List.length_take,prunedHistory_length])
    exact ⟨heads, (List.cons.inj rest).2⟩
  · rintro ⟨heads, tails⟩
    refine ⟨?_, ?_⟩
    · rw [turns,head,tail,text,Nat.sub_sub_self inside,heads,tails]
    · rw [head,tail,pruned]
      omega

/-- A pass that compresses leaves head and tail as they were just when every tool output it clears lies
between them; one that does not compress leaves the history as it was. -/
theorem compaction_partition (compressor : ContextCompressor) (history : List Turn) (tokenBudget : Nat)
    (llmSummary : Option String) (force : Bool) :
    (((compressor.pass history tokenBudget llmSummary force).wasCompressed = true →
        (compressor.pass history tokenBudget llmSummary force).Partitions history) ∧
      ((compressor.pass history tokenBudget llmSummary force).wasCompressed = false →
        (compressor.pass history tokenBudget llmSummary force).turns = history)) ↔
    (compressor.Compresses history tokenBudget force → ∀ i turn, history[i]? = some turn →
      prunes (compressor.pruneBoundary history) i turn = true →
        compressor.headOf history ≤ i ∧ i < compressor.cutOf history tokenBudget force) := by
  by_cases compresses : compressor.Compresses history tokenBudget force
  swap
  · rw [pass_unchanged compresses]
    simp [unchangedContext,compresses]
  have compressed : (compressor.pass history tokenBudget llmSummary force).wasCompressed = true :=
    pass_wasCompressed.mpr compresses
  simp only [compressed,compresses,true_imp_iff,Bool.true_eq_false,false_imp_iff,and_true]
  rw [partitions_iff compresses,prunedHistory_take,prunedHistory_drop,
    prunedHistory_agrees (· < compressor.headOf history),
    prunedHistory_agrees (compressor.cutOf history tokenBudget force ≤ ·)]
  constructor
  · rintro ⟨heads, tails⟩ i turn at_ cleared
    exact ⟨Nat.not_lt.mp (heads i turn at_ cleared), Nat.not_le.mp (tails i turn at_ cleared)⟩
  · intro between
    exact ⟨fun i turn at_ cleared => Nat.not_lt.mpr (between i turn at_ cleared).1,
      fun i turn at_ cleared => Nat.not_le.mpr (between i turn at_ cleared).2⟩

/-- The default ratios, and two turns protected at either end. -/
def smallConfig : CompressorConfig where
  threshold := fun n => n / 2
  target := fun n => n / 5
  summaryShare := fun n => n / 5
  reduces := fun removed before => decide (before ≤ removed * 10)
  protectLastNTurns := 2
  protectFirstNTurns := 2
  minSummaryTokens := 2000
  maxSummaryTokens := 12000

def toolOutput : Turn := ⟨"tool", String.ofList (List.replicate 201 'x')⟩

/-- The second turn is a tool output, and in the protected head. -/
def toolHistory : List Turn := [⟨"user", "list the files"⟩, toolOutput, ⟨"assistant", "here they are"⟩, ⟨"user", "thanks"⟩,
  ⟨"assistant", "anything else?"⟩, ⟨"user", "no"⟩]

theorem tool_compresses : Compresses ⟨smallConfig, none⟩ toolHistory 1000 true :=
  ⟨⟨List.cons_ne_nil _ _, .inl rfl⟩, by decide +kernel⟩

/-- The tool output in the head is gone. -/
theorem head_cleared : (pass ⟨smallConfig, none⟩ toolHistory 1000 none true).wasCompressed = true ∧
    (pass ⟨smallConfig, none⟩ toolHistory 1000 none true).protectedHeadTurns = 2 ∧
    (pass ⟨smallConfig, none⟩ toolHistory 1000 none true).turns[1]? =
      some ⟨"tool", "[Old tool output cleared to save context space]"⟩ ∧
    ¬(pass ⟨smallConfig, none⟩ toolHistory 1000 none true).Partitions toolHistory := by
  obtain ⟨_, compressed, _, turns, head, _⟩ := compressInternal_compressed none tool_compresses
  refine ⟨compressed, head, ?_, ?_⟩
  · have first : ((prunedHistory ⟨smallConfig, none⟩ toolHistory).take (headOf ⟨smallConfig, none⟩ toolHistory)).length = 2 := by
      decide
    refine (congrArg (·[1]?) turns).trans ((List.getElem?_append_left (by rw [first]; decide)).trans ?_)
    decide +kernel
  · rw [partitions_iff tool_compresses]
    intro same
    exact absurd same.1 (by decide +kernel)

end Zaion.Session
