import Zaion.Safety.Redact

/-! The passes behind the key rules: what each one hides, and that a second time it hides nothing. -/
namespace Zaion.Safety

open Lib

/-! Telegram tokens. -/

def TelegramToken (part : List Char) : Prop :=
  ∃ digits token, part = digits ++ ':' :: token ∧ 6 ≤ digits.length ∧ 25 ≤ token.length ∧
    (∀ c ∈ digits, c.isDigit = true) ∧ ∀ c ∈ token, inToken c = true

def telegramHides (part shown rest : List Char) : Prop :=
  shown = redacted.toList ∧ TelegramToken part ∧ rest.takeWhile inToken = []

section

variable {text rest digits token : List Char} {c : Char} {fuel : Nat}

theorem inToken_of_digit (digit : c.isDigit = true) : inToken c = true := by
  simp [inToken,Char.isAlphanum,digit]

theorem telegram_other (other : c.isDigit = false) :
    redactTelegramTokensFrom (fuel + 1) (c :: rest) = c :: redactTelegramTokensFrom fuel rest := by
  rw [redactTelegramTokensFrom]
  simp [other]

theorem telegram_digits (some_ : digits ≠ []) (all : ∀ c ∈ digits, c.isDigit = true)
    (ends : ∀ c ∈ rest.head?, c.isDigit = false ∧ (c = ':' → digits.length < 6)) :
    redactTelegramTokensFrom (fuel + 1) (digits ++ rest) = digits ++ redactTelegramTokensFrom fuel rest := by
  obtain ⟨d, digits, rfl⟩ := List.exists_cons_of_ne_nil some_
  have stops : rest.takeWhile Char.isDigit = [] := by
    cases rest with
    | nil => rfl
    | cons c rest => exact List.takeWhile_cons_of_neg (by simp [(ends c rfl).1])
  have run : (d :: (digits ++ rest)).takeWhile Char.isDigit = d :: digits := by
    rw [← List.cons_append,List.takeWhile_append_of_pos all,stops,List.append_nil]
  have behind : (d :: (digits ++ rest)).dropWhile Char.isDigit = rest := by
    rw [← List.cons_append,List.dropWhile_append_of_pos all]
    cases rest with
    | nil => rfl
    | cons c rest => exact List.dropWhile_cons_of_neg (by simp [(ends c rfl).1])
  rw [List.cons_append,redactTelegramTokensFrom,if_pos (all d List.mem_cons_self)]
  simp only [run,behind]
  cases rest with
  | nil => cases fuel <;> simp [redactTelegramTokensFrom]
  | cons c rest =>
    have short : ¬ (c = ':' ∧ 6 ≤ (d :: digits).length) := fun both => Nat.not_lt.mpr both.2 ((ends c rfl).2 both.1)
    simp only [if_neg short,List.cons_append]

theorem telegram_colon (many : 6 ≤ digits.length) (all : ∀ c ∈ digits, c.isDigit = true)
    (word : ∀ c ∈ token, inToken c = true) (ends : rest.takeWhile inToken = []) :
    redactTelegramTokensFrom (fuel + 1) (digits ++ ':' :: (token ++ rest)) =
      (if 25 ≤ token.length then redacted.toList else digits ++ ':' :: token) ++ redactTelegramTokensFrom fuel rest := by
  obtain ⟨d, digits, rfl⟩ := List.exists_cons_of_ne_nil (List.ne_nil_of_length_pos (by omega : 0 < digits.length))
  have run : (d :: (digits ++ ':' :: (token ++ rest))).takeWhile Char.isDigit = d :: digits := by
    rw [← List.cons_append,List.takeWhile_append_of_pos all]
    simp [List.takeWhile_cons_of_neg]
  have behind : (d :: (digits ++ ':' :: (token ++ rest))).dropWhile Char.isDigit = ':' :: (token ++ rest) := by
    rw [← List.cons_append,List.dropWhile_append_of_pos all]
    simp [List.dropWhile_cons_of_neg]
  have taken : (token ++ rest).takeWhile inToken = token := by
    rw [List.takeWhile_append_of_pos word,ends,List.append_nil]
  have left_ : (token ++ rest).dropWhile inToken = rest := by
    rw [List.dropWhile_append_of_pos word]
    have whole := List.takeWhile_append_dropWhile (p := inToken) (l := rest)
    rwa [ends] at whole
  rw [List.cons_append,redactTelegramTokensFrom,if_pos (all d List.mem_cons_self)]
  simp only [run,behind,taken,left_]
  rw [if_pos ⟨trivial, many⟩]

end

/-- A text as the scan takes it apart. -/
theorem telegram_induct {P : List Char → Prop} (nil : P [])
    (other : ∀ c rest, c.isDigit = false → P rest → P (c :: rest))
    (digits : ∀ digits rest, digits ≠ [] → (∀ c ∈ digits, c.isDigit = true) →
      (∀ c ∈ rest.head?, c.isDigit = false ∧ (c = ':' → digits.length < 6)) → P rest → P (digits ++ rest))
    (colon : ∀ digits token rest, 6 ≤ digits.length → (∀ c ∈ digits, c.isDigit = true) → (∀ c ∈ token, inToken c = true) →
      rest.takeWhile inToken = [] → P rest → P (digits ++ ':' :: (token ++ rest))) (text : List Char) : P text := by
  generalize size : text.length = n
  induction n using Nat.strongRecOn generalizing text with
  | ind n ih =>
    subst size
    cases text with
    | nil => exact nil
    | cons c rest =>
      cases digit : c.isDigit with
      | false => exact other c rest digit (ih rest.length (by simp) rest rfl)
      | true =>
        have whole : (c :: rest).takeWhile Char.isDigit ++ (c :: rest).dropWhile Char.isDigit = c :: rest :=
          List.takeWhile_append_dropWhile
        have all : ∀ d ∈ (c :: rest).takeWhile Char.isDigit, d.isDigit = true := fun d => List.mem_takeWhile_imp
        have some_ : (c :: rest).takeWhile Char.isDigit ≠ [] := by simp [List.takeWhile_cons_of_pos digit]
        have stops : ∀ d ∈ ((c :: rest).dropWhile Char.isDigit).head?, d.isDigit = false := by
          intro d head
          have no := List.head?_dropWhile_not Char.isDigit (c :: rest)
          rw [Option.mem_def.mp head] at no
          simpa using no
        generalize (c :: rest).takeWhile Char.isDigit = run at whole all some_
        generalize (c :: rest).dropWhile Char.isDigit = behind at whole stops
        rw [← whole] at ih ⊢
        have positive := List.length_pos_iff.mpr some_
        by_cases counts : behind.head? = some ':' ∧ 6 ≤ run.length
        · obtain ⟨after, rfl⟩ := List.head?_eq_some_iff.mp counts.1
          have cut : after.takeWhile inToken ++ after.dropWhile inToken = after := List.takeWhile_append_dropWhile
          have ends : (after.dropWhile inToken).takeWhile inToken = [] := by
            rw [List.takeWhile_eq_nil_iff]
            intro more goesOn
            exact absurd goesOn (by simpa using List.dropWhile_get_zero_not inToken after more)
          have word : ∀ d ∈ after.takeWhile inToken, inToken d = true := fun d => List.mem_takeWhile_imp
          generalize after.takeWhile inToken = token at cut word
          generalize after.dropWhile inToken = left_ at cut ends
          subst cut
          exact colon run token left_ counts.2 all word ends (ih _ (by simp; omega) left_ rfl)
        · refine digits run behind some_ all (fun d head => ⟨stops d head, ?_⟩) (ih _ (by simp; omega) behind rfl)
          rintro rfl
          by_contra many
          exact counts ⟨head, by omega⟩

theorem telegram_enough (text : List Char) {fuel more : Nat} (enough : text.length ≤ fuel) (also_ : text.length ≤ more) :
    redactTelegramTokensFrom fuel text = redactTelegramTokensFrom more text := by
  induction text using telegram_induct generalizing fuel more with
  | nil => cases fuel <;> cases more <;> rfl
  | other c rest plain ih =>
    rw [List.length_cons] at enough also_
    obtain ⟨fuel, rfl⟩ := Nat.exists_eq_add_of_le' (Nat.one_le_of_lt enough)
    obtain ⟨more, rfl⟩ := Nat.exists_eq_add_of_le' (Nat.one_le_of_lt also_)
    rw [telegram_other plain,telegram_other plain,ih (Nat.le_of_succ_le_succ enough) (Nat.le_of_succ_le_succ also_)]
  | digits digits rest some_ all ends ih =>
    have positive := List.length_pos_iff.mpr some_
    rw [List.length_append] at enough also_
    obtain ⟨fuel, rfl⟩ := Nat.exists_eq_add_of_le' (show 1 ≤ fuel by omega)
    obtain ⟨more, rfl⟩ := Nat.exists_eq_add_of_le' (show 1 ≤ more by omega)
    have fits : rest.length ≤ fuel := by omega
    rw [telegram_digits some_ all ends,telegram_digits some_ all ends,ih fits (show rest.length ≤ more by omega)]
  | colon digits token rest many all word ends ih =>
    simp only [List.length_append,List.length_cons] at enough also_
    obtain ⟨fuel, rfl⟩ := Nat.exists_eq_add_of_le' (show 1 ≤ fuel by omega)
    obtain ⟨more, rfl⟩ := Nat.exists_eq_add_of_le' (show 1 ≤ more by omega)
    have fits : rest.length ≤ fuel := by omega
    rw [telegram_colon many all word ends,telegram_colon many all word ends,ih fits (show rest.length ≤ more by omega)]

section

variable {rest digits token : List Char} {c : Char}

@[simp] theorem telegram_nil : redactTelegramTokens [] = [] := rfl

theorem telegram_cons (other : c.isDigit = false) : redactTelegramTokens (c :: rest) = c :: redactTelegramTokens rest :=
  telegram_other other

theorem telegram_run (some_ : digits ≠ []) (all : ∀ c ∈ digits, c.isDigit = true)
    (ends : ∀ c ∈ rest.head?, c.isDigit = false ∧ (c = ':' → digits.length < 6)) :
    redactTelegramTokens (digits ++ rest) = digits ++ redactTelegramTokens rest := by
  have positive := List.length_pos_iff.mpr some_
  have step : redactTelegramTokensFrom ((digits ++ rest).length + 1) (digits ++ rest) =
      digits ++ redactTelegramTokensFrom (digits ++ rest).length rest := telegram_digits some_ all ends
  rw [telegram_enough _ (Nat.le_succ _) (Nat.le_refl _)] at step
  rw [redactTelegramTokens,step,redactTelegramTokens,telegram_enough rest (by simp) (Nat.le_refl _)]

theorem telegram_token (many : 6 ≤ digits.length) (all : ∀ c ∈ digits, c.isDigit = true)
    (word : ∀ c ∈ token, inToken c = true) (ends : rest.takeWhile inToken = []) :
    redactTelegramTokens (digits ++ ':' :: (token ++ rest)) =
      (if 25 ≤ token.length then redacted.toList else digits ++ ':' :: token) ++ redactTelegramTokens rest := by
  have step : redactTelegramTokensFrom ((digits ++ ':' :: (token ++ rest)).length + 1) (digits ++ ':' :: (token ++ rest)) =
      (if 25 ≤ token.length then redacted.toList else digits ++ ':' :: token) ++
        redactTelegramTokensFrom (digits ++ ':' :: (token ++ rest)).length rest := telegram_colon many all word ends
  rw [telegram_enough _ (Nat.le_succ _) (Nat.le_refl _)] at step
  rw [redactTelegramTokens,step,redactTelegramTokens,telegram_enough rest (by simp; omega) (Nat.le_refl _)]

end

theorem telegram_masked (text : List Char) : Masked telegramHides text (redactTelegramTokens text) := by
  induction text using telegram_induct with
  | nil => exact .nil
  | other c rest plain ih =>
    rw [telegram_cons plain]
    exact .keep c ih
  | digits digits rest some_ all ends ih =>
    rw [telegram_run some_ all ends]
    exact ih.behind digits
  | colon digits token rest many all word ends ih =>
    rw [telegram_token many all word ends,← List.cons_append,← List.append_assoc]
    split
    · next long => exact .hide ⟨rfl, ⟨digits, token, rfl, many, long, all, word⟩, ends⟩ ih
    · exact ih.behind _

/-- A digit in front of a colon is what the scan looks for. -/
theorem telegram_same {text : List Char} (plain : ∀ d, d.isDigit = true → ¬ [d, ':'] <:+: text) :
    redactTelegramTokens text = text := by
  induction text using telegram_induct with
  | nil => rfl
  | other c rest other ih =>
    rw [telegram_cons other,ih fun d digit inside => plain d digit (List.infix_cons inside)]
  | digits digits rest some_ all ends ih =>
    rw [telegram_run some_ all ends,ih fun d digit inside => plain d digit (inside.trans (List.suffix_append _ _).isInfix)]
  | colon digits token rest many all word ends ih =>
    obtain ⟨init, d, rfl⟩ := (List.eq_nil_or_concat digits).resolve_left (List.ne_nil_of_length_pos (by omega))
    refine absurd ⟨init, token ++ rest, ?_⟩ (plain d (all d (by simp)))
    simp

/-- What stops the scan: it is neither a digit nor a colon, and no token goes on with it. -/
def Stops (c : Char) : Prop := c.isDigit = false ∧ c ≠ ':' ∧ inToken c = false

theorem telegram_stop {stop : Char} (stops : Stops stop) (text behind : List Char) :
    redactTelegramTokens (text ++ stop :: behind) = redactTelegramTokens text ++ stop :: redactTelegramTokens behind := by
  induction text using telegram_induct with
  | nil => exact telegram_cons stops.1
  | other c rest other ih => rw [List.cons_append,telegram_cons other,telegram_cons other,ih,List.cons_append]
  | digits digits rest some_ all ends ih =>
    have later : ∀ c ∈ (rest ++ stop :: behind).head?, c.isDigit = false ∧ (c = ':' → digits.length < 6) := by
      cases rest with
      | nil =>
        rintro c ⟨⟩
        exact ⟨stops.1, fun colon => absurd colon stops.2.1⟩
      | cons d rest => exact ends
    rw [List.append_assoc,telegram_run some_ all later,telegram_run some_ all ends,ih,List.append_assoc]
  | colon digits token rest many all word ends ih =>
    have later : (rest ++ stop :: behind).takeWhile inToken = [] := by
      cases rest with
      | nil => exact List.takeWhile_cons_of_neg (by simp [stops.2.2])
      | cons d rest =>
        rw [List.takeWhile_eq_nil_iff] at ends ⊢
        exact fun _ => ends (by simp)
    have whole : (digits ++ ':' :: (token ++ rest)) ++ stop :: behind =
        digits ++ ':' :: (token ++ (rest ++ stop :: behind)) := by
      simp
    rw [whole,telegram_token many all word later,telegram_token many all word ends,ih,List.append_assoc]

theorem telegram_front {front : List Char} (plain : ∀ c ∈ front, c.isDigit = false) (rest : List Char) :
    redactTelegramTokens (front ++ rest) = front ++ redactTelegramTokens rest := by
  induction front with
  | nil => rfl
  | cons c front ih =>
    obtain ⟨here, later⟩ := List.forall_mem_cons.mp plain
    rw [List.cons_append,telegram_cons here,ih later,List.cons_append]

theorem telegram_head {rest : List Char} (plain : ∀ c ∈ rest.head?, c.isDigit = false) :
    (redactTelegramTokens rest).head? = rest.head? := by
  cases rest with
  | nil => rfl
  | cons c rest =>
    rw [telegram_cons (plain c rfl)]
    rfl

theorem not_inToken_head {rest : List Char} (ends : rest.takeWhile inToken = []) :
    ∀ c ∈ rest.head?, inToken c = false := by
  cases rest with
  | nil => exact nofun
  | cons d rest =>
    rintro c ⟨⟩
    by_contra goesOn
    simp [goesOn] at ends

theorem takeWhile_of_head {rest : List Char} (ends : ∀ c ∈ rest.head?, inToken c = false) :
    rest.takeWhile inToken = [] := by
  cases rest with
  | nil => rfl
  | cons d rest => exact List.takeWhile_cons_of_neg (by simp [ends d rfl])

theorem digit_free_head {rest : List Char} (ends : rest.takeWhile inToken = []) :
    ∀ c ∈ rest.head?, c.isDigit = false := by
  intro c head
  by_contra digit
  have no := not_inToken_head ends c head
  rw [inToken_of_digit (by simpa using digit)] at no
  cases no

/-- What the scan leaves, it leaves again. -/
theorem telegram_idempotent (text : List Char) :
    redactTelegramTokens (redactTelegramTokens text) = redactTelegramTokens text := by
  induction text using telegram_induct with
  | nil => rfl
  | other c rest other ih => rw [telegram_cons other,telegram_cons other,ih]
  | digits digits rest some_ all ends ih =>
    have head := telegram_head fun c first => (ends c first).1
    rw [telegram_run some_ all ends,telegram_run some_ all (head ▸ ends),ih]
  | colon digits token rest many all word ends ih =>
    have head := telegram_head (digit_free_head ends)
    rw [telegram_token many all word ends]
    split
    · rw [telegram_front (by decide),ih]
    · next short =>
      have still := takeWhile_of_head (head ▸ not_inToken_head ends)
      rw [List.append_assoc,List.cons_append,telegram_token many all word still,if_neg short,ih,List.append_assoc,
        List.cons_append]

theorem telegram_length_le (text : List Char) : (redactTelegramTokens text).length ≤ text.length := by
  induction text using telegram_induct with
  | nil => exact Nat.le_refl 0
  | other c rest other ih =>
    rw [telegram_cons other]
    exact Nat.succ_le_succ ih
  | digits digits rest some_ all ends ih =>
    rw [telegram_run some_ all ends,List.length_append,List.length_append]
    exact Nat.add_le_add_left ih _
  | colon digits token rest many all word ends ih =>
    have ten : redacted.toList.length = 10 := by decide
    rw [telegram_token many all word ends]
    split <;> simp only [List.length_append,List.length_cons] <;> omega

/-- A text the scan leaves alone is left alone on both sides of a stop. -/
theorem telegram_sides {stop : Char} (stops : Stops stop) {text behind : List Char}
    (same : redactTelegramTokens (text ++ stop :: behind) = text ++ stop :: behind) :
    redactTelegramTokens text = text ∧ redactTelegramTokens behind = behind := by
  have front := telegram_length_le text
  have back := telegram_length_le behind
  rw [telegram_stop stops] at same
  have size := congrArg List.length same
  simp only [List.length_append,List.length_cons] at size
  obtain ⟨first, rest⟩ := List.append_inj same (by omega)
  exact ⟨first, (List.cons.inj rest).2⟩

/-! Connection strings. -/

theorem scheme_borderless : Borderless scheme := ⟨':', ['/', '/'], rfl, by decide⟩

section

variable {before remaining creds after text : List Char}

theorem scheme_first (found : breakAt scheme text = some (before, remaining)) : ¬ scheme <:+: before := by
  rintro ⟨front, rest, rfl⟩
  have least : front ++ scheme ++ rest <+: front := by
    refine breakAt_least found ⟨rest ++ (scheme ++ remaining), ?_⟩
    rw [breakAt_split found]
    simp only [List.append_assoc]
  have size := least.length_le
  simp only [List.length_append] at size
  have three : scheme.length = 3 := rfl
  omega

theorem credentials_eq_some : credentials remaining = some after ↔
    ∃ creds, remaining = creds ++ '@' :: after ∧ '@' ∉ creds ∧ ':' ∈ creds ∧ '/' ∉ creds ∧ ' ' ∉ creds := by
  constructor
  · intro found
    rw [credentials] at found
    cases at_ : breakAt ['@'] remaining with
    | none => simp [at_] at found
    | some parts =>
      obtain ⟨creds, rest⟩ := parts
      simp only [at_] at found
      split at found
      · next named =>
        cases found
        refine ⟨creds, breakAt_split at_, fun inside => ?_, named⟩
        obtain ⟨front, more, rfl⟩ := List.append_of_mem inside
        have least : front ++ '@' :: more <+: front := by
          refine breakAt_least at_ ⟨more ++ ('@' :: after), ?_⟩
          rw [breakAt_split at_]
          simp
        have size := least.length_le
        simp only [List.length_append,List.length_cons] at size
        omega
      · cases found
  · rintro ⟨creds, rfl, fresh, named⟩
    have at_ : breakAt ['@'] (creds ++ '@' :: after) = some (creds, after) :=
      breakAt_first ⟨'@', [], rfl, List.not_mem_nil⟩ (by rwa [List.singleton_infix_iff]) after
    rw [credentials,at_]
    exact if_pos named

theorem db_enough (text : List Char) {fuel more : Nat} (enough : text.length ≤ fuel) (also_ : text.length ≤ more) :
    redactDbConnectionStringsFrom fuel text = redactDbConnectionStringsFrom more text := by
  induction fuel generalizing text more with
  | zero =>
    obtain rfl := List.eq_nil_of_length_eq_zero (Nat.le_zero.mp enough)
    cases more <;> rfl
  | succ fuel ih =>
    cases more with
    | zero =>
      obtain rfl := List.eq_nil_of_length_eq_zero (Nat.le_zero.mp also_)
      rfl
    | succ more =>
      rw [redactDbConnectionStringsFrom,redactDbConnectionStringsFrom]
      cases found : breakAt scheme text with
      | none => rfl
      | some parts =>
        obtain ⟨before, remaining⟩ := parts
        have size := congrArg List.length (breakAt_split found)
        simp only [List.length_append,show scheme.length = 3 from rfl] at size
        dsimp only
        cases kept : credentials remaining with
        | none =>
          dsimp only
          rw [ih remaining (by omega) (show remaining.length ≤ more by omega)]
        | some after =>
          obtain ⟨creds, rfl, -⟩ := credentials_eq_some.mp kept
          simp only [List.length_append,List.length_cons] at size
          dsimp only
          rw [ih after (by omega) (show after.length ≤ more by omega)]

theorem db_none (absent : ¬ scheme <:+: text) : redactDbConnectionStrings text = text := by
  rw [redactDbConnectionStrings]
  cases text.length with
  | zero => rfl
  | succ fuel => rw [redactDbConnectionStringsFrom,breakAt_none_iff.mpr absent]

theorem db_bare (absent : ¬ scheme <:+: before) (kept : credentials remaining = none) :
    redactDbConnectionStrings (before ++ (scheme ++ remaining)) =
      before ++ (scheme ++ redactDbConnectionStrings remaining) := by
  have step :
      redactDbConnectionStringsFrom ((before ++ (scheme ++ remaining)).length + 1) (before ++ (scheme ++ remaining)) =
      before ++ (scheme ++ redactDbConnectionStringsFrom (before ++ (scheme ++ remaining)).length remaining) := by
    rw [redactDbConnectionStringsFrom,breakAt_first scheme_borderless absent]
    simp only [kept]
  rw [db_enough _ (Nat.le_succ _) (Nat.le_refl _)] at step
  rw [redactDbConnectionStrings,step,redactDbConnectionStrings,db_enough remaining (by simp; omega) (Nat.le_refl _)]

theorem db_cut (absent : ¬ scheme <:+: before) (named : credentials remaining = some after) :
    redactDbConnectionStrings (before ++ (scheme ++ remaining)) =
      before ++ (scheme ++ ("***@".toList ++ redactDbConnectionStrings after)) := by
  have step :
      redactDbConnectionStringsFrom ((before ++ (scheme ++ remaining)).length + 1) (before ++ (scheme ++ remaining)) =
      before ++ (scheme ++
        ("***@".toList ++ redactDbConnectionStringsFrom (before ++ (scheme ++ remaining)).length after)) := by
    rw [redactDbConnectionStringsFrom,breakAt_first scheme_borderless absent]
    simp only [named]
  have fits : after.length ≤ (before ++ (scheme ++ remaining)).length := by
    obtain ⟨creds, rfl, -⟩ := credentials_eq_some.mp named
    simp only [List.length_append,List.length_cons]
    omega
  rw [db_enough _ (Nat.le_succ _) (Nat.le_refl _)] at step
  rw [redactDbConnectionStrings,step,redactDbConnectionStrings,db_enough after fits (Nat.le_refl _)]

end

/-- A text as the pass takes it apart. -/
theorem db_induct {P : List Char → Prop} (plain : ∀ text, ¬ scheme <:+: text → P text)
    (bare : ∀ before remaining, ¬ scheme <:+: before → credentials remaining = none → P remaining →
      P (before ++ (scheme ++ remaining)))
    (named : ∀ before creds after, ¬ scheme <:+: before → credentials (creds ++ '@' :: after) = some after → P after →
      P (before ++ (scheme ++ (creds ++ '@' :: after)))) (text : List Char) : P text := by
  generalize size : text.length = n
  induction n using Nat.strongRecOn generalizing text with
  | ind n ih =>
    subst size
    cases found : breakAt scheme text with
    | none => exact plain text (breakAt_none_iff.mp found)
    | some parts =>
      obtain ⟨before, remaining⟩ := parts
      have absent := scheme_first found
      obtain rfl := breakAt_split found
      cases kept : credentials remaining with
      | none => exact bare before remaining absent kept (ih _ (by simp [scheme]; omega) remaining rfl)
      | some after =>
        obtain ⟨creds, rfl, -⟩ := credentials_eq_some.mp kept
        exact named before creds after absent kept (ih _ (by simp [scheme]; omega) after rfl)

/-- The credentials, with the scheme in front and the `@`. -/
def credentialHides (part shown _ : List Char) : Prop :=
  shown = scheme ++ "***@".toList ∧ ∃ creds, part = scheme ++ (creds ++ ['@']) ∧ '@' ∉ creds ∧ ':' ∈ creds ∧ '/' ∉ creds ∧
    ' ' ∉ creds

theorem db_masked (text : List Char) : Masked credentialHides text (redactDbConnectionStrings text) := by
  induction text using db_induct with
  | plain text absent =>
    rw [db_none absent]
    exact Masked.refl _ _
  | bare before remaining absent kept ih =>
    rw [db_bare absent kept]
    exact (ih.behind scheme).behind before
  | named before creds after absent found ih =>
    obtain ⟨same, split, free⟩ := credentials_eq_some.mp found
    obtain rfl := List.append_cancel_right split
    rw [db_cut absent found]
    apply Masked.behind
    have whole : scheme ++ (creds ++ '@' :: after) = (scheme ++ (creds ++ ['@'])) ++ after := by simp
    rw [whole,← List.append_assoc scheme "***@".toList]
    exact .hide ⟨rfl, creds, rfl, free⟩ ih

theorem db_front {front : List Char} (plain : ':' ∉ front) (text : List Char) :
    redactDbConnectionStrings (front ++ text) = front ++ redactDbConnectionStrings text := by
  have head : scheme.head? = some ':' := rfl
  cases found : breakAt scheme text with
  | none =>
    have absent : breakAt scheme (front ++ text) = none := by rw [breakAt_pass head plain,found]; rfl
    rw [db_none (breakAt_none_iff.mp absent),db_none (breakAt_none_iff.mp found)]
  | some parts =>
    obtain ⟨before, remaining⟩ := parts
    have further : breakAt scheme (front ++ text) = some (front ++ before, remaining) := by
      rw [breakAt_pass head plain,found]
      rfl
    have absent := scheme_first found
    have absentFurther := scheme_first further
    obtain rfl := breakAt_split found
    rw [← List.append_assoc front]
    cases kept : credentials remaining with
    | none => rw [db_bare absentFurther kept,db_bare absent kept,List.append_assoc]
    | some after => rw [db_cut absentFurther kept,db_cut absent kept,List.append_assoc]

/-- The pass puts no credentials in front of an `@`. -/
theorem credentials_kept {remaining : List Char} (kept : credentials remaining = none) :
    credentials (redactDbConnectionStrings remaining) = none := by
  by_contra named
  obtain ⟨after, found⟩ := Option.ne_none_iff_exists'.mp named
  obtain ⟨creds, same, free, colon, slash, blank⟩ := credentials_eq_some.mp found
  have starts {before rest text : List Char} (shown : before ++ (scheme ++ rest) = creds ++ '@' :: after)
      (whole : remaining = before ++ text) : False := by
    rcases List.append_eq_append_iff.mp shown with ⟨more, rfl, inner⟩ | ⟨more, rfl, inner⟩
    · match more, inner with
      | [c], inner => simp [scheme] at inner
      | c :: d :: more, inner =>
        simp only [scheme,List.cons_append,List.cons.injEq] at inner
        exact slash (by simp [← inner.2.1])
      | [], inner => simp [scheme] at inner
    · cases more with
      | nil => simp [scheme] at inner
      | cons c more =>
        obtain rfl : '@' = c := (List.cons.inj inner).1
        have again : credentials remaining = some (more ++ text) :=
          credentials_eq_some.mpr ⟨creds, by rw [whole]; simp, free, colon, slash, blank⟩
        rw [kept] at again
        cases again
  induction remaining using db_induct with
  | plain text absent =>
    rw [db_none absent,kept] at found
    cases found
  | bare before remaining absent inner _ =>
    rw [db_bare absent inner] at same
    exact starts same rfl
  | named before creds after absent inner _ =>
    rw [db_cut absent inner] at same
    exact starts same rfl

/-- What a mask shows names no password. -/
theorem credentials_masked (after : List Char) : credentials ("***@".toList ++ after) = none := by
  have at_ : breakAt ['@'] ("***".toList ++ '@' :: after) = some ("***".toList, after) :=
    breakAt_first ⟨'@', [], rfl, List.not_mem_nil⟩ (by decide) after
  rw [show "***@".toList ++ after = "***".toList ++ '@' :: after from rfl,credentials,at_]
  exact if_neg (by decide)

theorem db_idempotent (text : List Char) :
    redactDbConnectionStrings (redactDbConnectionStrings text) = redactDbConnectionStrings text := by
  induction text using db_induct with
  | plain text absent => rw [db_none absent,db_none absent]
  | bare before remaining absent kept ih => rw [db_bare absent kept,db_bare absent (credentials_kept kept),ih]
  | named before creds after absent found ih =>
    rw [db_cut absent found,db_bare absent (credentials_masked _),db_front (by decide),ih]

/-- Where the scan for Telegram tokens changes nothing, it changes nothing after the pass. -/
theorem telegram_db {text : List Char} (same : redactTelegramTokens text = text) :
    redactTelegramTokens (redactDbConnectionStrings text) = redactDbConnectionStrings text := by
  have slash : Stops '/' := ⟨by decide, by decide, by decide⟩
  have at_ : Stops '@' := ⟨by decide, by decide, by decide⟩
  have apart (before text : List Char) : before ++ (scheme ++ text) = (before ++ [':']) ++ '/' :: ([] ++ '/' :: text) := by
    simp [scheme]
  induction text using db_induct with
  | plain text absent => rw [db_none absent,same]
  | bare before remaining absent kept ih =>
    rw [apart] at same
    obtain ⟨front, behind⟩ := telegram_sides slash same
    rw [db_bare absent kept,apart,telegram_stop slash,telegram_stop slash,front,ih (telegram_sides slash behind).2,
      telegram_nil]
  | named before creds after absent found ih =>
    rw [apart] at same
    obtain ⟨front, behind⟩ := telegram_sides slash same
    have later := (telegram_sides at_ (telegram_sides slash behind).2).2
    rw [db_cut absent found,apart,telegram_stop slash,telegram_stop slash,front,telegram_front (by decide),
      ih later,telegram_nil]

/-! Headers. -/

/-- A keyword ends a token itself: what is taken for its token is never long enough. -/
theorem keyword_same {lead : List Char} {minTotalLen : Nat} (some_ : lead ≠ []) (ends : ∃ c ∈ lead, endsToken c = true)
    (long : byteLen lead < minTotalLen) (fuel : Nat) (text : List Char) :
    redactPrefixTokensFrom lead minTotalLen fuel text = text := by
  obtain ⟨c, member, ender⟩ := ends
  have cut (after : List Char) : tokenOf (lead ++ after) = tokenOf lead := by
    rw [tokenOf,List.takeWhile_append,if_neg,← tokenOf]
    intro whole
    have all : tokenOf lead = lead := (List.takeWhile_prefix _).eq_of_length whole
    have inside := tokenOf_inside lead c (all.symm ▸ member)
    rw [ender] at inside
    cases inside
  induction fuel generalizing text with
  | zero => rfl
  | succ fuel ih =>
    rw [redactPrefixTokensFrom]
    cases found : breakAt lead text with
    | none => rfl
    | some parts =>
      obtain ⟨before, after⟩ := parts
      have start : (if tokenOf lead = [] then lead else tokenOf lead) <+: lead := by
        split
        · exact List.prefix_refl lead
        · exact List.takeWhile_prefix _
      dsimp only
      rw [cut]
      generalize (if tokenOf lead = [] then lead else tokenOf lead) = token at start
      obtain ⟨more, rfl⟩ := start
      have short : ¬ minTotalLen ≤ byteLen token := by
        rw [byteLen_append] at long
        omega
      rw [if_neg short,ih,List.append_assoc token,List.drop_left,breakAt_split found,List.append_assoc token]

theorem redactBearerTokens_same (text : List Char) : redactBearerTokens text = text := by
  have all : ∀ keyword ∈ keywords, (keyword.toList ≠ [] ∧ keyword.toList.any endsToken = true) ∧
      byteLen keyword.toList < keyword.utf8ByteSize + 10 := by decide
  have each (some_ : List String) (part : some_ ⊆ keywords) :
      some_.foldl (fun result keyword => redactPrefixTokens keyword.toList (keyword.utf8ByteSize + 10) result) text = text := by
    induction some_ with
    | nil => rfl
    | cons keyword later ih =>
      obtain ⟨here, rest⟩ := List.cons_subset.mp part
      obtain ⟨⟨filled, ends⟩, long⟩ := all keyword here
      rw [List.foldl_cons,redactPrefixTokens,keyword_same filled (List.any_eq_true.mp ends) long]
      exact ih rest
  exact each keywords (List.Subset.refl keywords)

end Zaion.Safety
