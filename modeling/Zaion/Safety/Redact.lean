import Zaion.Lib.Find
import Zaion.Lib.Masked
import Zaion.Lib.Size

/-! The redaction of secrets: one pass for each key rule, then Telegram tokens, connection strings and headers.
Lengths are in bytes, as the source counts them. -/
namespace Zaion.Safety

open Lib

def redacted : String := "[REDACTED]"

/-- `lead` is what the source calls the prefix. -/
structure Rule where
  lead : String
  minTotalLen : Nat
deriving DecidableEq

def rules : List Rule :=
  [⟨"sk-ant-api03-", 30⟩, ⟨"sk-ant-", 20⟩,
    ⟨"sk-proj-", 20⟩, ⟨"sk-svcacct-", 20⟩, ⟨"sk-", 20⟩,
    ⟨"ghp_", 10⟩, ⟨"gho_", 10⟩, ⟨"ghs_", 10⟩, ⟨"ghr_", 10⟩, ⟨"github_pat_", 20⟩,
    ⟨"xoxb-", 10⟩, ⟨"xoxp-", 10⟩, ⟨"xoxa-", 10⟩, ⟨"xoxr-", 10⟩, ⟨"xoxs-", 10⟩,
    ⟨"AIza", 10⟩, ⟨"ya29.", 20⟩, ⟨"AKIA", 20⟩, ⟨"ASIA", 20⟩,
    ⟨"sk_live_", 20⟩, ⟨"sk_test_", 20⟩, ⟨"rk_live_", 20⟩,
    ⟨"AC", 34⟩, ⟨"SG.", 15⟩, ⟨"hf_", 10⟩, ⟨"cfuser_", 10⟩, ⟨"cfkey_", 10⟩,
    ⟨"eyJ", 30⟩, ⟨"zhipuai-", 15⟩, ⟨"mm-", 20⟩, ⟨"dsk-", 15⟩]

def keywords : List String := ["Bearer ", "Token ", "Authorization: Bearer ", "Authorization: Token "]

/-- `String::len`. -/
def byteLen (text : List Char) : Nat := (text.map Char.utf8Size).sum

/-- What a token does not go on with. -/
def endsToken (c : Char) : Bool :=
  c = ' ' || c = '\t' || c = '\n' || c = '\x0c' || c = '\r' || c = ',' || c = '"' || c = '\'' || c = ')'

def tokenOf (text : List Char) : List Char := text.takeWhile fun c => !endsToken c

/-- A token has a character at least, so that the text is fuel enough. -/
def redactPrefixTokensFrom (lead : List Char) (minTotalLen : Nat) : Nat → List Char → List Char
  | 0, text => text
  | fuel + 1, text =>
    match breakAt lead text with
    | none => text
    | some (before, after) =>
      let taken := tokenOf (lead ++ after)
      let token := if taken = [] then lead else taken
      before ++ ((if minTotalLen ≤ byteLen token then redacted.toList else token) ++
        redactPrefixTokensFrom lead minTotalLen fuel ((lead ++ after).drop token.length))

def redactPrefixTokens (lead : List Char) (minTotalLen : Nat) (text : List Char) : List Char :=
  redactPrefixTokensFrom lead minTotalLen text.length text

def inToken (c : Char) : Bool := c.isAlphanum || c = '_' || c = '-'

def redactTelegramTokensFrom : Nat → List Char → List Char
  | 0, text => text
  | _ + 1, [] => []
  | fuel + 1, c :: rest =>
    if c.isDigit then
      let digits := (c :: rest).takeWhile Char.isDigit
      match (c :: rest).dropWhile Char.isDigit with
      | [] => digits
      | d :: after =>
        if d = ':' ∧ 6 ≤ digits.length then
          let token := after.takeWhile inToken
          (if 25 ≤ token.length then redacted.toList else digits ++ ':' :: token) ++
            redactTelegramTokensFrom fuel (after.dropWhile inToken)
        else digits ++ redactTelegramTokensFrom fuel (d :: after)
    else c :: redactTelegramTokensFrom fuel rest

def redactTelegramTokens (text : List Char) : List Char := redactTelegramTokensFrom text.length text

def scheme : List Char := [':', '/', '/']

/-- What is in front of the first `@` names a user and a password, and the text behind the `@`. -/
def credentials (remaining : List Char) : Option (List Char) :=
  match breakAt ['@'] remaining with
  | none => none
  | some (creds, after) => if ':' ∈ creds ∧ '/' ∉ creds ∧ ' ' ∉ creds then some after else none

def redactDbConnectionStringsFrom : Nat → List Char → List Char
  | 0, text => text
  | fuel + 1, text =>
    match breakAt scheme text with
    | none => text
    | some (before, remaining) =>
      match credentials remaining with
      | some after => before ++ (scheme ++ ("***@".toList ++ redactDbConnectionStringsFrom fuel after))
      | none => before ++ (scheme ++ redactDbConnectionStringsFrom fuel remaining)

def redactDbConnectionStrings (text : List Char) : List Char := redactDbConnectionStringsFrom text.length text

def redactBearerTokens (text : List Char) : List Char :=
  keywords.foldl (fun result keyword => redactPrefixTokens keyword.toList (keyword.utf8ByteSize + 10) result) text

def redactKeys (rules : List Rule) (text : List Char) : List Char :=
  rules.foldl (fun result rule => redactPrefixTokens rule.lead.toList rule.minTotalLen result) text

def redact (text : String) : String :=
  String.ofList (redactBearerTokens (redactDbConnectionStrings (redactTelegramTokens (redactKeys rules text.toList))))

example : redact "pg://me:pw@db" = "pg://***@db" := by
  decide

/-! A rule's pass. -/

/-- What is behind a token. -/
def tokenRest (text : List Char) : List Char := text.dropWhile fun c => !endsToken c

theorem tokenOf_rest (text : List Char) : tokenOf text ++ tokenRest text = text := List.takeWhile_append_dropWhile

theorem tokenOf_tokenRest (text : List Char) : tokenOf (tokenRest text) = [] := by
  rw [tokenOf,tokenRest,List.takeWhile_eq_nil_iff]
  intro some_ goesOn
  exact absurd goesOn (List.dropWhile_get_zero_not _ _ some_)

theorem tokenOf_inside (text : List Char) : ∀ c ∈ tokenOf text, endsToken c = false := by
  intro c member
  simpa using List.mem_takeWhile_imp member

@[simp] theorem byteLen_append (a b : List Char) : byteLen (a ++ b) = byteLen a + byteLen b := by simp [byteLen]

theorem tokenOf_append {a : List Char} (inside : ∀ c ∈ a, endsToken c = false) (b : List Char) :
    tokenOf (a ++ b) = a ++ tokenOf b :=
  List.takeWhile_append_of_pos fun c member => by simp [inside c member]

theorem tokenRest_append {a : List Char} (inside : ∀ c ∈ a, endsToken c = false) (b : List Char) :
    tokenRest (a ++ b) = tokenRest b :=
  List.dropWhile_append_of_pos fun c member => by simp [inside c member]

theorem byteLen_tokenOf (text : List Char) : byteLen (tokenOf text) ≤ byteLen text := by
  conv_rhs => rw [← tokenOf_rest text,byteLen_append]
  exact Nat.le_add_right _ _

theorem byteLen_tokenOf_append {y v : List Char} (closed : tokenOf v = []) : byteLen (tokenOf (y ++ v)) ≤ byteLen y := by
  rw [tokenOf,List.takeWhile_append]
  split
  · rw [← tokenOf,closed,List.append_nil]
  · exact byteLen_tokenOf y

theorem tokenOf_eq_nil {c : Char} {text : List Char} (closed : tokenOf (c :: text) = []) : endsToken c = true := by
  by_contra goesOn
  simp [tokenOf,goesOn] at closed

/-- A mask that weighs no more than what it hides, within one token. -/
def Hidden (part shown : List Char) : Prop :=
  shown = redacted.toList ∧ (∀ c ∈ part, endsToken c = false) ∧ 10 ≤ byteLen part

theorem tokenOf_masked {hides : List Char → List Char → List Char → Prop} {u v : List Char}
    (hidden : ∀ part shown rest, hides part shown rest → Hidden part shown) (masked : Masked hides u v) :
    byteLen (tokenOf v) ≤ byteLen (tokenOf u) := by
  refine masked.weight_le _ _ fun part shown rest allowed => ?_
  obtain ⟨rfl, inside, long⟩ := hidden part shown rest allowed
  refine ⟨fun c member => by simp [inside c member], by decide, ?_⟩
  exact (show byteLen redacted.toList ≤ byteLen part from le_trans (by decide) long)

theorem byteLen_eq_zero {text : List Char} (none_ : byteLen text = 0) : text = [] := by
  cases text with
  | nil => rfl
  | cons c rest =>
    have size := c.utf8Size_pos
    simp only [byteLen,List.map_cons,List.sum_cons] at none_
    omega

/-- What the passes rely on, of a rule: the placeholder holds its prefix, if at all, at least 28 bytes
too short. -/
structure Proper (lead : List Char) (minTotalLen : Nat) : Prop where
  some_ : lead ≠ []
  plain : ∀ c ∈ lead, endsToken c = false ∧ c ∉ ['[', ']', ':', '/', '@', '*']
  long : 10 ≤ minTotalLen
  apart : ∀ k < 10, lead <+: redacted.toList.drop k → byteLen (redacted.toList.drop k) + 28 ≤ minTotalLen

theorem rules_proper : ∀ rule ∈ rules, Proper rule.lead.toList rule.minTotalLen := by
  have all : ∀ rule ∈ rules, (rule.lead.toList ≠ [] ∧
      ∀ c ∈ rule.lead.toList, endsToken c = false ∧ c ∉ ['[', ']', ':', '/', '@', '*']) ∧ 10 ≤ rule.minTotalLen ∧
      ∀ k < 10, rule.lead.toList <+: redacted.toList.drop k →
        byteLen (redacted.toList.drop k) + 28 ≤ rule.minTotalLen := by decide
  intro rule member
  obtain ⟨⟨some_, plain⟩, long, apart⟩ := all rule member
  exact ⟨some_, plain, long, apart⟩

/-- A token with the prefix, long enough. -/
def Matches (lead : List Char) (minTotalLen : Nat) (text : List Char) : Prop :=
  ∃ a b, text = a ++ (lead ++ b) ∧ minTotalLen ≤ byteLen lead + byteLen (tokenOf b)

theorem Matches.behind {lead text : List Char} {minTotalLen : Nat} (front : List Char) :
    Matches lead minTotalLen text → Matches lead minTotalLen (front ++ text) := by
  rintro ⟨a, b, rfl, long⟩
  exact ⟨front ++ a, b, by rw [List.append_assoc], long⟩

/-- What a rule hides: a token to its end. -/
def keyHides (lead : List Char) (minTotalLen : Nat) (part shown rest : List Char) : Prop :=
  shown = redacted.toList ∧ lead <+: part ∧ (∀ c ∈ part, endsToken c = false) ∧ minTotalLen ≤ byteLen part ∧
    tokenOf rest = []

namespace Proper

variable {lead text before after : List Char} {minTotalLen fuel : Nat}

theorem inside (proper : Proper lead minTotalLen) : ∀ c ∈ lead, endsToken c = false :=
  fun c member => (proper.plain c member).1

theorem lead_token (proper : Proper lead minTotalLen) : ∀ c ∈ lead ++ tokenOf after, endsToken c = false := by
  intro c member
  rcases List.mem_append.mp member with inLead | behind
  · exact proper.inside c inLead
  · exact tokenOf_inside after c behind

theorem from_some (proper : Proper lead minTotalLen) (found : breakAt lead text = some (before, after)) :
    redactPrefixTokensFrom lead minTotalLen (fuel + 1) text = before ++
      ((if minTotalLen ≤ byteLen (lead ++ tokenOf after) then redacted.toList else lead ++ tokenOf after) ++
        redactPrefixTokensFrom lead minTotalLen fuel (tokenRest after)) := by
  have taken : tokenOf (lead ++ after) = lead ++ tokenOf after := tokenOf_append proper.inside after
  have some_ : lead ++ tokenOf after ≠ [] := fun none_ => proper.some_ (List.append_eq_nil_iff.mp none_).1
  have rest : (lead ++ after).drop (lead ++ tokenOf after).length = tokenRest after := by
    have split : lead ++ after = (lead ++ tokenOf after) ++ tokenRest after := by rw [List.append_assoc,tokenOf_rest]
    rw [split,List.drop_left]
  rw [redactPrefixTokensFrom]
  simp only [found,taken,if_neg some_,rest]

theorem hidden (proper : Proper lead minTotalLen) (part shown rest : List Char)
    (allowed : keyHides lead minTotalLen part shown rest) : Hidden part shown :=
  ⟨allowed.1, allowed.2.2.1, proper.long.trans allowed.2.2.2.1⟩

theorem masked (proper : Proper lead minTotalLen) (fuel : Nat) (text : List Char) :
    Masked (keyHides lead minTotalLen) text (redactPrefixTokensFrom lead minTotalLen fuel text) := by
  induction fuel generalizing text with
  | zero => exact Masked.refl _ text
  | succ fuel ih =>
    cases found : breakAt lead text with
    | none =>
      rw [redactPrefixTokensFrom,found]
      exact Masked.refl _ text
    | some parts =>
      obtain ⟨before, after⟩ := parts
      have split : text = before ++ ((lead ++ tokenOf after) ++ tokenRest after) := by
        rw [List.append_assoc,tokenOf_rest]
        exact breakAt_split found
      rw [proper.from_some found,split]
      apply Masked.behind
      split
      · next long =>
        exact .hide ⟨rfl, List.prefix_append _ _, proper.lead_token, long, tokenOf_tokenRest after⟩ (ih _)
      · exact (ih _).behind _

/-- Where the rule matches nowhere, its pass changes nothing. -/
theorem same (proper : Proper lead minTotalLen) (absent : ¬ Matches lead minTotalLen text) (fuel : Nat) :
    redactPrefixTokensFrom lead minTotalLen fuel text = text := by
  induction fuel generalizing text with
  | zero => rfl
  | succ fuel ih =>
    cases found : breakAt lead text with
    | none => rw [redactPrefixTokensFrom,found]
    | some parts =>
      obtain ⟨before, after⟩ := parts
      have split : text = before ++ (lead ++ after) := breakAt_split found
      have short : ¬ minTotalLen ≤ byteLen (lead ++ tokenOf after) := by
        intro long
        rw [byteLen_append] at long
        exact absent ⟨before, after, split, long⟩
      have later : ¬ Matches lead minTotalLen (tokenRest after) := by
        intro again
        apply absent
        rw [split,← tokenOf_rest after]
        exact ((again.behind _).behind lead).behind before
      rw [proper.from_some found,if_neg short,ih later,List.append_assoc,tokenOf_rest,split]

/-- A prefix that begins in the placeholder ends in it. -/
theorem within (proper : Proper lead minTotalLen) {k : Nat} (below : k < 10) {seen b : List Char}
    (same : redacted.toList.drop k ++ seen = lead ++ b) :
    ∃ more, redacted.toList.drop k = lead ++ more ∧ b = more ++ seen := by
  rcases List.append_eq_append_iff.mp same with ⟨more, outside, -⟩ | ⟨more, inner, rest⟩
  · have closing : ∀ k < 10, ']' ∈ redacted.toList.drop k := by decide
    have member : ']' ∈ lead := outside ▸ List.mem_append_left more (closing k below)
    exact absurd (by simp) (proper.plain _ member).2
  · exact ⟨more, inner, rest⟩

/-- A match that begins in the placeholder needs 28 bytes behind it. -/
theorem behind (proper : Proper lead minTotalLen) {k : Nat} (below : k < 10) {seen b : List Char}
    (same : redacted.toList.drop k ++ seen = lead ++ b) (long : minTotalLen ≤ byteLen lead + byteLen (tokenOf b)) :
    28 ≤ byteLen (tokenOf seen) := by
  obtain ⟨more, tail, rfl⟩ := proper.within below same
  have far := proper.apart k below (tail ▸ List.prefix_append _ _)
  have inside : ∀ d ∈ more, endsToken d = false := by
    intro d member
    have all : ∀ d ∈ redacted.toList, endsToken d = false := by decide
    exact all d (List.mem_of_mem_drop (tail ▸ List.mem_append_right _ member))
  rw [tokenOf_append inside,byteLen_append] at long
  rw [tail,byteLen_append] at far
  omega

/-- A prefix stands in one of two parts, where the second one does not go on with a token. -/
theorem beside (proper : Proper lead minTotalLen) {x v front b : List Char} (closed : tokenOf v = [])
    (same : x ++ v = front ++ (lead ++ b)) :
    (∃ more, v = more ++ (lead ++ b)) ∨ ∃ y, x = front ++ (lead ++ y) ∧ b = y ++ v := by
  rcases List.append_eq_append_iff.mp same with ⟨more, -, later⟩ | ⟨more, rfl, later⟩
  · exact .inl ⟨more, later⟩
  · rcases List.append_eq_append_iff.mp later with ⟨y, rfl, rfl⟩ | ⟨z, split, rfl⟩
    · exact .inr ⟨y, rfl, rfl⟩
    · cases z with
      | nil => exact .inr ⟨[], by simp [split], rfl⟩
      | cons c z =>
        have inLead : c ∈ lead := split ▸ List.mem_append_right more List.mem_cons_self
        have ends := tokenOf_eq_nil closed
        rw [proper.inside c inLead] at ends
        cases ends

/-- After its pass the rule matches nowhere. -/
theorem free (proper : Proper lead minTotalLen) (enough : text.length ≤ fuel) :
    ¬ Matches lead minTotalLen (redactPrefixTokensFrom lead minTotalLen fuel text) := by
  induction fuel generalizing text with
  | zero =>
    rintro ⟨a, b, same, -⟩
    rw [List.eq_nil_of_length_eq_zero (Nat.le_zero.mp enough)] at same
    simp [redactPrefixTokensFrom,proper.some_] at same
  | succ fuel ih =>
    cases found : breakAt lead text with
    | none =>
      rw [redactPrefixTokensFrom,found]
      rintro ⟨a, b, rfl, -⟩
      exact breakAt_none_iff.mp found ⟨a, b, by rw [List.append_assoc]⟩
    | some parts =>
      obtain ⟨before, after⟩ := parts
      have split : text = before ++ (lead ++ after) := breakAt_split found
      have shorter : (tokenRest after).length ≤ fuel := by
        have behind : (tokenRest after).length ≤ after.length := List.length_dropWhile_le _ _
        have some_ := List.length_pos_iff.mpr proper.some_
        rw [split,List.length_append,List.length_append] at enough
        omega
      have closed : tokenOf (redactPrefixTokensFrom lead minTotalLen fuel (tokenRest after)) = [] := by
        have less := tokenOf_masked proper.hidden (proper.masked fuel (tokenRest after))
        rw [tokenOf_tokenRest] at less
        exact byteLen_eq_zero (Nat.le_zero.mp less)
      rw [proper.from_some found,← List.append_assoc]
      rintro ⟨front, b, same, long⟩
      rcases proper.beside closed same with ⟨more, later⟩ | ⟨y, here, rfl⟩
      · exact ih shorter ⟨more, b, later, long⟩
      · have enoughHere : minTotalLen ≤ byteLen lead + byteLen y :=
          long.trans (Nat.add_le_add_left (byteLen_tokenOf_append closed) _)
        -- The first occurrence in the text is the one that was taken.
        have first (rest : List Char) (occurs : before = front ++ (lead ++ rest)) : False := by
          have least : before <+: front := breakAt_least found ⟨rest ++ (lead ++ after), by rw [split,occurs]; simp⟩
          have size := least.length_le
          have some_ := List.length_pos_iff.mpr proper.some_
          rw [occurs,List.length_append,List.length_append] at size
          omega
        split at here
        · rcases List.append_eq_append_iff.mp here with ⟨f, rfl, inner⟩ | ⟨f, rfl, inner⟩
          · have below : f.length < 10 := by
              have size := congrArg List.length inner
              have some_ := List.length_pos_iff.mpr proper.some_
              rw [show redacted.toList.length = 10 by decide,List.length_append,List.length_append] at size
              omega
            have tail : redacted.toList.drop f.length = lead ++ y := by rw [inner,List.drop_left]
            have far := proper.apart f.length below (tail ▸ List.prefix_append lead y)
            rw [tail,byteLen_append] at far
            omega
          · rcases List.append_eq_append_iff.mp inner with ⟨z, rfl, -⟩ | ⟨z, cut, shown⟩
            · exact first z rfl
            · cases z with
              | nil => exact first [] (by simp [cut])
              | cons c z =>
                obtain rfl : '[' = c := (List.cons.inj (show '[' :: _ = _ from shown)).1
                exact (proper.plain '[' (cut ▸ List.mem_append_right f List.mem_cons_self)).2 List.mem_cons_self
        · next short =>
          have least : before <+: front := by
            refine breakAt_least found ⟨y ++ tokenRest after, ?_⟩
            have joined := congrArg (· ++ tokenRest after) here
            simp only [List.append_assoc,tokenOf_rest] at joined
            rw [split,joined,List.append_assoc]
          obtain ⟨f, rfl⟩ := least
          rw [List.append_assoc,List.append_cancel_left_eq] at here
          rw [here,byteLen_append,byteLen_append] at short
          omega

/-- A match in what is seen is one in the text, or begins in a placeholder with 28 bytes behind it. -/
theorem masked_matches (proper : Proper lead minTotalLen) {hides : List Char → List Char → List Char → Prop}
    {u v : List Char} (hidden : ∀ part shown rest, hides part shown rest → Hidden part shown) (masked : Masked hides u v)
    (matched : Matches lead minTotalLen v) : Matches lead minTotalLen u ∨
      ∃ front part shown rest, u = front ++ (part ++ rest) ∧ hides part shown rest ∧ 28 ≤ byteLen (tokenOf rest) := by
  obtain ⟨a, b, rfl, long⟩ := matched
  obtain ⟨c, q, rfl⟩ := List.exists_cons_of_ne_nil proper.some_
  have fresh (part shown rest : List Char) (allowed : hides part shown rest) : ∃ d more, shown = d :: more ∧ d ∉ q := by
    obtain ⟨rfl, -, -⟩ := hidden part shown rest allowed
    refine ⟨'[', "REDACTED]".toList, by decide, fun member => ?_⟩
    exact (proper.plain '[' (List.mem_cons_of_mem c member)).2 List.mem_cons_self
  rcases Masked.source fresh masked with ⟨front, b', rfl, later⟩ |
    ⟨front, part, shown, rest, v', k, rfl, allowed, later, below, same⟩
  · exact .inl ⟨front, b', rfl, long.trans (Nat.add_le_add_left (tokenOf_masked hidden later) _)⟩
  · obtain ⟨rfl, -, -⟩ := hidden part shown rest allowed
    replace below : k < 10 := by rwa [show redacted.toList.length = 10 by decide] at below
    exact .inr ⟨front, part, _, rest, rfl, allowed, (proper.behind below same long).trans (tokenOf_masked hidden later)⟩

end Proper

/-! All the rules. -/

theorem redactPrefixTokens_masked {rule : Rule} (member : rule ∈ rules) (text : List Char) :
    Masked (keyHides rule.lead.toList rule.minTotalLen) text
      (redactPrefixTokens rule.lead.toList rule.minTotalLen text) :=
  (rules_proper rule member).masked text.length text

/-- What every rule's pass preserves. -/
theorem redactKeys_invariant {P : List Char → Prop} {some_ : List Rule} {text : List Char}
    (step : ∀ rule ∈ some_, ∀ u, P u → P (redactPrefixTokens rule.lead.toList rule.minTotalLen u)) (start : P text) :
    P (redactKeys some_ text) := by
  induction some_ generalizing text with
  | nil => exact start
  | cons rule later ih =>
    obtain ⟨here, rest⟩ := List.forall_mem_cons.mp step
    exact ih rest (here text start)

/-- A rule's pass makes no other rule match. -/
theorem redactPrefixTokens_keeps {rule other : Rule} (member : rule ∈ rules) (otherMember : other ∈ rules)
    {text : List Char} (absent : ¬ Matches other.lead.toList other.minTotalLen text) :
    ¬ Matches other.lead.toList other.minTotalLen (redactPrefixTokens rule.lead.toList rule.minTotalLen text) := by
  intro matched
  rcases (rules_proper other otherMember).masked_matches (rules_proper rule member).hidden
    (redactPrefixTokens_masked member text) matched with here | ⟨front, part, shown, rest, -, allowed, far⟩
  · exact absent here
  · rw [allowed.2.2.2.2] at far
    exact absurd far (by decide)

/-- No rule matches where no key is left. -/
def Keyless (text : List Char) : Prop := ∀ rule ∈ rules, ¬ Matches rule.lead.toList rule.minTotalLen text

theorem redactKeys_keyless (text : List Char) : Keyless (redactKeys rules text) := by
  have all (some_ : List Rule) (part : some_ ⊆ rules) (text : List Char) :
      ∀ rule ∈ some_, ¬ Matches rule.lead.toList rule.minTotalLen (redactKeys some_ text) := by
    induction some_ generalizing text with
    | nil => exact nofun
    | cons first later ih =>
      obtain ⟨here, rest⟩ := List.cons_subset.mp part
      rintro rule (_ | ⟨_, member⟩)
      · change ¬ Matches first.lead.toList first.minTotalLen (redactKeys later _)
        refine redactKeys_invariant (P := fun u => ¬ Matches first.lead.toList first.minTotalLen u)
          (fun other inLater u => redactPrefixTokens_keeps (rest inLater) here) ?_
        exact (rules_proper first here).free (Nat.le_refl _)
      · exact ih rest _ rule member
  exact all rules (List.Subset.refl rules) text

theorem redactKeys_same {some_ : List Rule} (part : some_ ⊆ rules) {text : List Char} (keyless : Keyless text) :
    redactKeys some_ text = text := by
  induction some_ with
  | nil => rfl
  | cons first later ih =>
    obtain ⟨here, rest⟩ := List.cons_subset.mp part
    have step : redactPrefixTokens first.lead.toList first.minTotalLen text = text :=
      (rules_proper first here).same (keyless first here) _
    exact (congrArg (redactKeys later) step).trans (ih rest)

end Zaion.Safety
