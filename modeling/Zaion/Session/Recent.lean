import Zaion.Session.Compaction

/-! What a compaction pass keeps of the end of a history: the last turn, the turns protected with it,
and the last thing the user asked for. -/
namespace Zaion.Session

namespace ContextCompressor

variable {compressor : ContextCompressor} {history : List Turn} {tokenBudget : Nat} {force : Bool} {llmSummary : Option String}
  {config : CompressorConfig} {headEnd budget i : Nat}

/-! Where the tail begins -/

theorem tailFloor_pos (more : headEnd < history.length) : 1 ≤ tailFloor config history.length headEnd := by
  unfold tailFloor
  omega

theorem tailFloor_room (two : headEnd + 2 ≤ history.length) :
    tailFloor config history.length headEnd < history.length - headEnd := by
  unfold tailFloor
  split <;> omega

theorem tailFloor_ge (two : headEnd + 2 ≤ history.length) :
    min config.protectLastNTurns (history.length - headEnd - 2) ≤ tailFloor config history.length headEnd := by
  unfold tailFloor
  split <;> omega

theorem alignTailBoundaryBackward_le_self (behind : headEnd < i) (inside : i ≤ history.length) :
    alignTailBoundaryBackward history i headEnd ≤ i := by
  rw [alignTailBoundaryBackward]
  split
  · omega
  · rename_i tool
    simp only [not_or,not_not] at tool
    obtain ⟨_, _, tool⟩ := tool
    have skipped : skipTools history headEnd i < i := by
      cases i with
      | zero => omega
      | succ i =>
        rw [skipTools,if_pos ⟨behind, tool⟩]
        exact Nat.lt_succ_of_le (skipTools_le headEnd i)
    simp only
    split <;> omega

/-- With two turns behind the head, the tail has at least its floor. -/
theorem findTailStartByTokens_tail (two : headEnd + 2 ≤ history.length) :
    findTailStartByTokens config history headEnd budget ≤ history.length - tailFloor config history.length headEnd := by
  have room : tailFloor config _ _ < _ := tailFloor_room two
  have behind : headEnd < tokenCut config history headEnd budget := clampCut_gt (by omega) _
  have cut : tokenCut config history headEnd budget ≤ history.length - tailFloor config history.length headEnd :=
    clampCut_le _ _ _
  rw [findTailStartByTokens_eq (by omega)]
  exact (ensureLastUserTurnInTail_le _ _).trans
    ((alignTailBoundaryBackward_le_self behind (cut.trans (Nat.sub_le _ _))).trans cut)

/-- The last user turn is at or behind any other. -/
theorem lastUserTurn_some (inside : headEnd ≤ i) (user : roleAt history i = some "user") :
    ∃ j, lastUserTurn history headEnd = some j ∧ i ≤ j := by
  have below : i < history.length := by
    by_contra above
    rw [roleAt,List.getElem?_eq_none (Nat.not_lt.mp above)] at user
    cases user
  unfold lastUserTurn
  generalize candidates : (List.range history.length).filter (fun i =>
    decide (headEnd ≤ i) && decide (roleAt history i = some "user")) = turns
  have member : i ∈ turns := by
    rw [← candidates]
    simp [inside,user,below]
  have sorted : turns.Pairwise (· < ·) := by
    rw [← candidates]
    exact List.pairwise_lt_range.filter _
  have last : turns.getLast? = some (turns.getLast (List.ne_nil_of_mem member)) := List.getLast?_eq_some_getLast _
  generalize turns.getLast (List.ne_nil_of_mem member) = j at last
  have parts := List.dropLast_append_getLast? j last
  rw [← parts] at member sorted
  refine ⟨j, last, ?_⟩
  rcases List.mem_append.mp member with earlier | same
  · exact Nat.le_of_lt ((List.pairwise_append.mp sorted).2.2 i earlier j (List.mem_singleton_self j))
  · exact Nat.le_of_eq (List.mem_singleton.mp same)

/-- The cut never passes the last user turn behind the head. -/
theorem ensureLastUserTurnInTail_le_last {cut : Nat} (inside : headEnd ≤ i) (last : lastUserTurn history 0 = some i) :
    ensureLastUserTurnInTail history cut headEnd ≤ i := by
  obtain ⟨j, found, _⟩ := lastUserTurn_some inside (lastUserTurn_spec last).2.2
  obtain ⟨k, again, order⟩ := lastUserTurn_some (Nat.zero_le j) (lastUserTurn_spec found).2.2
  rw [last,Option.some.injEq] at again
  rw [ensureLastUserTurnInTail,found]
  simp only
  split <;> omega

/-! Roles outlive the clearing of tool outputs -/

theorem roleAt_prunedHistory : roleAt (compressor.prunedHistory history) i = roleAt history i := by
  rw [roleAt,roleAt,prunedHistory_getElem?,Option.map_map]
  congr 1
  funext turn
  simp only [Function.comp_apply,pruneTurn]
  split
  · rename_i cleared
    simp only [prunes,Bool.and_eq_true,decide_eq_true_eq] at cleared
    exact cleared.1.2.symm
  · rfl

theorem lastUserTurn_prunedHistory : lastUserTurn (compressor.prunedHistory history) headEnd = lastUserTurn history headEnd := by
  simp only [lastUserTurn,prunedHistory_length,roleAt_prunedHistory]

/-- Turns protected at the end are never cleared. -/
theorem prunedHistory_recent (recent : compressor.pruneBoundary history ≤ i) :
    (compressor.prunedHistory history)[i]? = history[i]? := by
  refine (prunedHistory_agrees (compressor.pruneBoundary history ≤ ·)).mpr (fun j _ _ cleared => ?_) i recent
  simp only [prunes,Bool.and_eq_true,decide_eq_true_eq] at cleared
  exact Nat.not_le.mpr cleared.1.1

/-! With a single turn behind the head -/

/-- Nothing is left for the tail, unless the user asked last. -/
theorem findTailStartByTokens_single (one : history.length = headEnd + 1) :
    findTailStartByTokens config history headEnd budget =
      if roleAt history headEnd = some "user" then headEnd else history.length := by
  have floor : tailFloor config history.length headEnd = 1 := by
    unfold tailFloor
    split <;> omega
  have fallback : history.length - tailFloor config history.length headEnd = headEnd := by omega
  have cut : tokenCut config history headEnd budget = headEnd := by
    rw [tokenCut,fallback,clampCut_self]
  have aligned : alignTailBoundaryBackward history headEnd headEnd = history.length := by
    rw [alignTailBoundaryBackward]
    split
    · omega
    · rename_i tool
      simp only [not_or,not_not] at tool
      have stays : skipTools history headEnd headEnd = headEnd := by
        cases headEnd with
        | zero => rfl
        | succ headEnd => rw [skipTools,if_neg (fun more => Nat.lt_irrefl _ more.1)]
      simp only [stays,tool.2.2]
      rw [if_neg (by decide)]
      omega
  rw [findTailStartByTokens_eq (by omega),cut,aligned]
  split
  · rename_i user
    obtain ⟨j, found, order⟩ := lastUserTurn_some (Nat.le_refl headEnd) user
    have inside := (lastUserTurn_spec found).2.1
    rw [ensureLastUserTurnInTail,found]
    simp only
    split <;> omega
  · rename_i other
    rw [ensureLastUserTurnInTail]
    cases found : lastUserTurn history headEnd with
    | none => rfl
    | some j =>
      obtain ⟨behind, inside, user⟩ := lastUserTurn_spec found
      obtain rfl : j = headEnd := by omega
      exact absurd user other

end ContextCompressor

/-- The turns behind the summary. -/
def CompressedContext.tail (context : CompressedContext) : List Turn := context.turns.drop (context.protectedHeadTurns + 1)

/-- The last turn of the history still comes last, the turns protected with it are still there, and so is
the last thing the user asked for: behind the summary, unless it was in the head. -/
structure CompressedContext.KeepsRecent (context : CompressedContext) (config : CompressorConfig) (history : List Turn) :
    Prop where
  last : context.tail.getLast? = history.getLast?
  recent : history.drop (history.length - min config.protectLastNTurns (history.length - context.protectedHeadTurns - 2)) <:+
    context.tail
  user : ∀ i turn, ContextCompressor.lastUserTurn history 0 = some i → history[i]? = some turn →
    turn ∈ context.turns ∧ (context.protectedHeadTurns ≤ i → turn ∈ context.tail)

open ContextCompressor

variable {compressor : ContextCompressor} {history : List Turn} {tokenBudget : Nat} {llmSummary : Option String} {force : Bool}

theorem pass_tail (compresses : compressor.Compresses history tokenBudget force) :
    (compressor.pass history tokenBudget llmSummary force).tail =
      (compressor.prunedHistory history).drop (compressor.cutOf history tokenBudget force) := by
  obtain ⟨_, _, _, turns, head, _⟩ := compressInternal_compressed llmSummary compresses
  have length : ((compressor.prunedHistory history).take (compressor.headOf history)).length = compressor.headOf history := by
    rw [List.length_take,prunedHistory_length]
    exact Nat.min_eq_left (Nat.min_le_right _ _)
  rw [CompressedContext.tail,turns,head,List.drop_append,length]
  simp [length]

theorem headOf_of_compresses (compresses : compressor.Compresses history tokenBudget force) :
    compressor.headOf history = compressor.config.protectFirstNTurns ∧
      compressor.config.protectFirstNTurns < history.length := by
  have below : compressor.headOf history < history.length := compresses.2.trans_le cutOf_le
  unfold headOf at *
  omega

theorem cutOf_single (one : history.length = compressor.config.protectFirstNTurns + 1) :
    compressor.cutOf history tokenBudget force =
      if roleAt history compressor.config.protectFirstNTurns = some "user" then compressor.config.protectFirstNTurns
      else history.length := by
  have head : compressor.headOf history = compressor.config.protectFirstNTurns := by unfold headOf; omega
  rw [cutOf,head,findTailStartByTokens_single (by rw [prunedHistory_length,one]),roleAt_prunedHistory,prunedHistory_length]

theorem keepsRecent_of_room (protects : 1 ≤ compressor.config.protectLastNTurns)
    (compresses : compressor.Compresses history tokenBudget force)
    (room : compressor.config.protectFirstNTurns + 2 ≤ history.length) :
    (compressor.pass history tokenBudget llmSummary force).KeepsRecent compressor.config history := by
  obtain ⟨_, _, _, turns, head, _⟩ := compressInternal_compressed llmSummary compresses
  obtain ⟨first, _⟩ := headOf_of_compresses compresses
  have two : compressor.headOf history + 2 ≤ (compressor.prunedHistory history).length := by
    rw [prunedHistory_length]; omega
  have cut : compressor.cutOf history tokenBudget force ≤ _ := findTailStartByTokens_tail two
  have floor : min compressor.config.protectLastNTurns _ ≤ _ := tailFloor_ge two
  have some_ : 1 ≤ tailFloor compressor.config _ _ := tailFloor_pos (Nat.lt_of_succ_lt two)
  rw [prunedHistory_length] at cut floor some_
  refine ⟨?_, ?_, ?_⟩
  · rw [pass_tail compresses,List.getLast?_drop,prunedHistory_length,if_neg (by omega),List.getLast?_eq_getElem?,
      List.getLast?_eq_getElem?,prunedHistory_length]
    exact prunedHistory_recent (by unfold pruneBoundary; omega)
  · rw [pass_tail compresses,head]
    generalize counted : min compressor.config.protectLastNTurns (history.length - compressor.headOf history - 2) = kept at floor
    have recent : (compressor.prunedHistory history).drop (history.length - kept) = history.drop (history.length - kept) :=
      (prunedHistory_drop _).mpr fun i behind => prunedHistory_recent (by unfold pruneBoundary; omega)
    rw [← recent]
    exact List.drop_suffix_drop_left _ (by omega)
  · intro i turn last at_
    obtain ⟨_, _, user⟩ := lastUserTurn_spec last
    have kept : (compressor.prunedHistory history)[i]? = some turn := by
      apply prunedHistory_kept at_
      rw [roleAt,at_,Option.map_some,Option.some.injEq] at user
      simp [prunes,user]
    rw [pass_tail compresses,head,turns]
    have behind : compressor.headOf history ≤ i →
        turn ∈ (compressor.prunedHistory history).drop (compressor.cutOf history tokenBudget force) := by
      intro inside
      have early : compressor.cutOf history tokenBudget force ≤ i := by
        rw [cutOf,findTailStartByTokens_eq (Nat.lt_of_succ_lt two)]
        exact ensureLastUserTurnInTail_le_last inside (lastUserTurn_prunedHistory.trans last)
      rw [List.mem_iff_getElem?]
      exact ⟨i - compressor.cutOf history tokenBudget force, by rw [List.getElem?_drop,Nat.add_sub_cancel' early,kept]⟩
    refine ⟨?_, behind⟩
    rcases Nat.lt_or_ge i (compressor.headOf history) with before | inside
    · exact List.mem_append_left _ (List.mem_of_getElem? ((List.getElem?_take_of_lt before).trans kept))
    · exact List.mem_append_right _ (.tail _ (behind inside))

/-- A pass keeps what is recent, except where a single turn stands behind the head and is not the user's:
the tail is then empty and that turn is summarized away. -/
theorem compaction_keeps_recent (compressor : ContextCompressor) (history : List Turn) (tokenBudget : Nat)
    (llmSummary : Option String) (force : Bool) (protects : 1 ≤ compressor.config.protectLastNTurns) :
    ((compressor.pass history tokenBudget llmSummary force).wasCompressed = true →
      (compressor.pass history tokenBudget llmSummary force).KeepsRecent compressor.config history) ↔
    ¬(compressor.Triggered history tokenBudget force ∧ history.length = compressor.config.protectFirstNTurns + 1 ∧
      roleAt history compressor.config.protectFirstNTurns ≠ some "user") := by
  rw [pass_wasCompressed]
  constructor
  · rintro kept ⟨called, one, other⟩
    have head : compressor.headOf history = compressor.config.protectFirstNTurns := by unfold headOf; omega
    have cut : compressor.cutOf history tokenBudget force = history.length := by rw [cutOf_single one,if_neg other]
    have compresses : compressor.Compresses history tokenBudget force := ⟨called, by omega⟩
    have last := (kept compresses).last
    rw [pass_tail compresses,cut,List.drop_eq_nil_of_le (by rw [prunedHistory_length]),List.getLast?_nil] at last
    rw [List.getLast?_eq_none_iff.mp last.symm] at one
    cases one
  · intro room compresses
    obtain ⟨head, more⟩ := headOf_of_compresses compresses
    apply keepsRecent_of_room protects compresses
    by_contra single
    have one : history.length = compressor.config.protectFirstNTurns + 1 := by omega
    refine room ⟨compresses.1, one, fun user => ?_⟩
    have middle := compresses.2
    rw [cutOf_single one,if_pos user] at middle
    omega

theorem tool_history_recent : (pass ⟨smallConfig, none⟩ toolHistory 1000 none true).KeepsRecent smallConfig toolHistory :=
  (compaction_keeps_recent ⟨smallConfig, none⟩ toolHistory 1000 none true (by decide)).mpr
    (fun single => absurd single.2.1 (by decide)) (pass_wasCompressed.mpr tool_compresses)

/-- Two turns in the head and the answer behind them. -/
def answeredHistory : List Turn := [⟨"system", "be brief"⟩, ⟨"user", "what is it?"⟩, ⟨"assistant", "a compiler"⟩]

theorem answer_dropped : (pass ⟨smallConfig, none⟩ answeredHistory 1000 none true).wasCompressed = true ∧
    (pass ⟨smallConfig, none⟩ answeredHistory 1000 none true).turns.getLast?.map Turn.role = some "system" ∧
    answeredHistory.getLast? = some ⟨"assistant", "a compiler"⟩ ∧
    (pass ⟨smallConfig, none⟩ answeredHistory 1000 none true).tail = [] := by
  have compresses : Compresses ⟨smallConfig, none⟩ answeredHistory 1000 true :=
    ⟨⟨List.cons_ne_nil _ _, .inl rfl⟩, by decide⟩
  have cut : cutOf ⟨smallConfig, none⟩ answeredHistory 1000 true = 3 := by decide
  obtain ⟨_, compressed, _, turns, _⟩ := compressInternal_compressed none compresses
  have rest : (prunedHistory ⟨smallConfig, none⟩ answeredHistory).drop 3 = [] := by decide
  refine ⟨compressed, ?_, rfl, ?_⟩
  · rw [turns,cut,rest,List.getLast?_append]
    rfl
  · rw [pass_tail compresses,cut,rest]

end Zaion.Session
