import Zaion.Lib.Fit
import Zaion.Session.Compressor

/-! `hard_truncate_to_budget`: the protected head and as many of the newest turns as the budget holds. -/
namespace Zaion.Session

open Lib

namespace ContextCompressor

/-- The loop over the turns behind the head, newest first: tokens and turns kept so far. -/
def keepNewest (tailBudget : Nat) : List Turn → Nat → List Turn → List Turn
  | [], _, kept => kept
  | turn :: older, tokens, kept =>
    if tailBudget < tokens + turn.tokenEstimate ∧ kept ≠ [] then kept
    else keepNewest tailBudget older (tokens + turn.tokenEstimate) (kept ++ [turn])

/-- The truncated turns, and how many were dropped. -/
def hardTruncateToBudget (compressor : ContextCompressor) (turns : List Turn) (tokenBudget : Nat) : List Turn × Nat :=
  if totalTokens turns ≤ tokenBudget ∨ turns = [] then (turns, 0)
  else
    let headN := min compressor.config.protectFirstNTurns turns.length
    let head := turns.take headN
    let tailBudget := tokenBudget - totalTokens head
    let result := head ++ (keepNewest tailBudget (turns.drop headN).reverse 0 []).reverse
    (result, turns.length - result.length)

/-! The loop is greedy, but for its first round -/

theorem keepNewest_fitting {tailBudget tokens : Nat} {older kept : List Turn} (some_ : kept ≠ []) :
    keepNewest tailBudget older tokens kept = kept ++ fitting Turn.tokenEstimate tailBudget tokens older := by
  induction older generalizing tokens kept with
  | nil => rw [keepNewest,fitting,List.append_nil]
  | cons turn older ih =>
    rw [keepNewest,fitting]
    by_cases full : tailBudget < tokens + turn.tokenEstimate
    · rw [if_pos ⟨full, some_⟩,if_pos full,List.append_nil]
    · rw [if_neg fun both => full both.1,if_neg full,ih (by simp),List.append_assoc,List.singleton_append]

/-- The newest turn is kept whatever it costs. -/
theorem keepNewest_cons (tailBudget : Nat) (newest : Turn) (older : List Turn) :
    keepNewest tailBudget (newest :: older) 0 [] =
      newest :: fitting Turn.tokenEstimate tailBudget newest.tokenEstimate older := by
  rw [keepNewest,if_neg fun both => both.2 rfl,keepNewest_fitting (by simp),Nat.zero_add]
  rfl

theorem keepNewest_front (tailBudget : Nat) (newer : List Turn) : keepNewest tailBudget newer 0 [] <+: newer := by
  cases newer with
  | nil => exact List.prefix_rfl
  | cons newest older =>
    rw [keepNewest_cons]
    exact (List.prefix_cons_inj newest).mpr fitting_prefix

theorem keepNewest_fits {tailBudget : Nat} {newest : Turn} {older : List Turn} (fits : newest.tokenEstimate ≤ tailBudget) :
    keepNewest tailBudget (newest :: older) 0 [] = fitting Turn.tokenEstimate tailBudget 0 (newest :: older) := by
  rw [keepNewest_cons,fitting,if_neg (by omega),Nat.zero_add]

end ContextCompressor

theorem totalTokens_eq (turns : List Turn) : totalTokens turns = (turns.map Turn.tokenEstimate).sum := by
  rw [totalTokens,← List.foldl_map,List.sum_eq_foldl]

theorem totalTokens_append (a b : List Turn) : totalTokens (a ++ b) = totalTokens a + totalTokens b := by
  simp only [totalTokens_eq,List.map_append,List.sum_append]

theorem totalTokens_reverse (turns : List Turn) : totalTokens turns.reverse = totalTokens turns := by
  simp only [totalTokens_eq,List.map_reverse,List.sum_reverse]

/-- What is left after truncation: the head with the newest turns behind it, in order, and all of them that
fit where any fits. -/
structure MaximalFit (headN : Nat) (turns : List Turn) (tokenBudget : Nat) (result : List Turn × Nat) : Prop where
  shape : ∃ tail, tail <:+ turns.drop headN ∧ result.1 = turns.take headN ++ tail
  counted : result.2 + result.1.length = turns.length
  fits : totalTokens (turns.take headN) + (turns.drop headN).getLast?.elim 0 Turn.tokenEstimate ≤ tokenBudget →
    totalTokens result.1 ≤ tokenBudget
  maximal : totalTokens (turns.take headN) + (turns.drop headN).getLast?.elim 0 Turn.tokenEstimate ≤ tokenBudget →
    ∀ tail, tail <:+ turns.drop headN → result.1.length < (turns.take headN ++ tail).length →
      tokenBudget < totalTokens (turns.take headN ++ tail)
  whole : totalTokens turns ≤ tokenBudget → result = (turns, 0)

theorem maximalFit_whole {headN tokenBudget : Nat} {turns : List Turn}
    (fits : totalTokens turns ≤ tokenBudget) : MaximalFit headN turns tokenBudget (turns, 0) where
  shape := ⟨turns.drop headN, List.suffix_rfl, (List.take_append_drop headN turns).symm⟩
  counted := Nat.zero_add _
  fits := fun _ => fits
  maximal := by
    intro _ tail newest longer
    have longer : turns.length < (turns.take headN ++ tail).length := longer
    have bound := newest.length_le
    rw [List.length_append] at longer
    have all := congrArg List.length (List.take_append_drop headN turns)
    rw [List.length_append] at all
    omega
  whole := fun _ => rfl

open ContextCompressor

/-- Where the newest turn fits, so does what the loop keeps, and no longer run of turns does. -/
theorem keepNewest_maximal {tailBudget : Nat} {rest : List Turn}
    (room : rest.getLast?.elim 0 Turn.tokenEstimate ≤ tailBudget) :
    totalTokens (keepNewest tailBudget rest.reverse 0 []).reverse ≤ tailBudget ∧
      ∀ tail, tail <:+ rest → (keepNewest tailBudget rest.reverse 0 []).length < tail.length → tailBudget < totalTokens tail := by
  rw [totalTokens_reverse,← List.head?_reverse] at *
  have greedy : keepNewest tailBudget rest.reverse 0 [] = fitting Turn.tokenEstimate tailBudget 0 rest.reverse := by
    cases newer : rest.reverse with
    | nil => rfl
    | cons newest older =>
      rw [newer,List.head?_cons,Option.elim_some] at room
      exact keepNewest_fits room
  rw [greedy]
  constructor
  · have kept : 0 + ((fitting Turn.tokenEstimate tailBudget 0 rest.reverse).map Turn.tokenEstimate).sum ≤ tailBudget :=
      fitting_le (Nat.zero_le _)
    rwa [Nat.zero_add,← totalTokens_eq] at kept
  · intro tail newest longer
    have more := fitting_maximal (List.reverse_prefix.mpr newest) (by rwa [List.length_reverse])
    rwa [Nat.zero_add,← totalTokens_eq,totalTokens_reverse] at more

/-- `hard_truncate_to_budget` keeps the protected head and the longest fitting run of newest turns. -/
theorem hard_truncate_maximal (compressor : ContextCompressor) (turns : List Turn) (tokenBudget : Nat) :
    MaximalFit (min compressor.config.protectFirstNTurns turns.length) turns tokenBudget
      (compressor.hardTruncateToBudget turns tokenBudget) := by
  rw [hardTruncateToBudget]
  split
  · rename_i fits
    apply maximalFit_whole
    rcases fits with fits | rfl
    · exact fits
    · exact Nat.zero_le _
  rename_i over_
  obtain ⟨over_, _⟩ := not_or.mp over_
  simp only
  generalize min compressor.config.protectFirstNTurns turns.length = headN
  have front := keepNewest_front (tokenBudget - totalTokens (turns.take headN)) (turns.drop headN).reverse
  have newest : (keepNewest (tokenBudget - totalTokens (turns.take headN)) (turns.drop headN).reverse 0 []).reverse <:+
      turns.drop headN := by
    rw [← List.reverse_prefix,List.reverse_reverse]
    exact front
  refine ⟨⟨_, newest, rfl⟩, ?_, ?_, ?_, fun fits => absurd fits over_⟩
  · have bound := newest.length_le
    have all := congrArg List.length (List.take_append_drop headN turns)
    rw [List.length_append] at *
    simp only
    omega
  · intro room
    have kept := (keepNewest_maximal (Nat.le_sub_of_add_le (Nat.add_comm _ _ ▸ room))).1
    simp only
    rw [totalTokens_append]
    omega
  · intro room tail suffix_ longer
    have more := (keepNewest_maximal (Nat.le_sub_of_add_le (Nat.add_comm _ _ ▸ room))).2 tail suffix_
    simp only [List.length_append,List.length_reverse] at longer
    rw [totalTokens_append]
    have := more (by omega)
    omega

end Zaion.Session
