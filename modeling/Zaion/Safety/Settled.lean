import Zaion.Safety.Passes

/-! When a redacted text stays as it is. A placeholder holds the prefix of a rule, so that what stands behind it in its
word decides. -/
namespace Zaion.Safety

open Lib

/-! What a text needs so that no placeholder is taken for a key. -/

/-- Behind a placeholder there is little. -/
def Spaced (text : List Char) : Prop := ∀ a b, text = a ++ (redacted.toList ++ b) → byteLen (tokenOf b) < 28

/-- Behind a Telegram token there is little. -/
def TokensSpaced (text : List Char) : Prop :=
  ∀ a part b, text = a ++ (part ++ b) → TelegramToken part → b.takeWhile inToken = [] → byteLen (tokenOf b) < 28

/-- A rule's prefix, or a Telegram token. -/
def Opening (part : List Char) : Prop := (∃ rule ∈ rules, rule.lead.toList = part) ∨ TelegramToken part

/-- No word with a prefix or a Telegram token goes on with a scheme that may have credentials. -/
def Unjoined (text : List Char) : Prop :=
  ∀ a part m b, text = a ++ (part ++ (m ++ (scheme ++ b))) → Opening part → (∀ c ∈ m, endsToken c = false) → '@' ∉ b

structure Apart (text : List Char) : Prop where
  spaced : Spaced text
  tokens : TokensSpaced text
  unjoined : Unjoined text

section

variable {hides : List Char → List Char → List Char → Prop} {u v part : List Char}

theorem inToken_inside {c : Char} (inside : inToken c = true) : endsToken c = false := by
  by_contra ends
  simp only [endsToken,Bool.not_eq_false,Bool.or_eq_true,decide_eq_true_eq] at ends
  rcases ends with (((((((rfl | rfl) | rfl) | rfl) | rfl) | rfl) | rfl) | rfl) | rfl <;> exact absurd inside (by decide)

theorem TelegramToken.plain (token : TelegramToken part) :
    part ≠ [] ∧ ∀ c ∈ part, endsToken c = false ∧ c ≠ '[' := by
  obtain ⟨digits, word, rfl, -, -, all, inside⟩ := token
  refine ⟨by simp, fun c member => ?_⟩
  have token : inToken c = true ∨ c = ':' := by
    rcases List.mem_append.mp member with digit | member
    · exact .inl (inToken_of_digit (all c digit))
    · rcases List.mem_cons.mp member with colon | behind
      · exact .inr colon
      · exact .inl (inside c behind)
  constructor
  · rcases token with word | rfl
    · exact inToken_inside word
    · decide
  · rintro rfl
    exact absurd token (by decide)

theorem TelegramToken.digit {c : Char} {q : List Char} (token : TelegramToken (c :: q)) : c.isDigit = true := by
  obtain ⟨digits, word, split, many, -, all, -⟩ := token
  cases digits with
  | nil => cases many
  | cons d digits =>
    rw [(List.cons.inj split).1]
    exact all d List.mem_cons_self

theorem starts_inside {shown seen rest : List Char} {c : Char} {k : Nat} (below : k < shown.length)
    (same : shown.drop k ++ seen = c :: rest) : c ∈ shown := by
  rw [List.drop_eq_getElem_cons below,List.cons_append] at same
  exact (List.cons.inj same).1 ▸ List.getElem_mem below

theorem Opening.plain (opening : Opening part) : part ≠ [] ∧ ∀ c ∈ part, endsToken c = false ∧ c ≠ '[' := by
  rcases opening with ⟨rule, member, rfl⟩ | token
  · have proper := rules_proper rule member
    refine ⟨proper.some_, fun c inside => ⟨proper.inside c inside, ?_⟩⟩
    rintro rfl
    exact (proper.plain '[' inside).2 List.mem_cons_self
  · exact token.plain

theorem Hidden.opens {shown : List Char} (hidden : Hidden part shown) {q : List Char} (plain : '[' ∉ q) :
    ∃ d more, shown = d :: more ∧ d ∉ q :=
  ⟨'[', "REDACTED]".toList, hidden.1.trans (by decide), plain⟩

theorem Hidden.below {shown : List Char} (hidden : Hidden part shown) {k : Nat} (inside : k < shown.length) : k < 10 := by
  rw [hidden.1,show redacted.toList.length = 10 by decide] at inside
  exact inside

/-- Masks that hide up to the end of a token. -/
structure Tail (hides : List Char → List Char → List Char → Prop) : Prop where
  hidden : ∀ part shown rest, hides part shown rest → Hidden part shown
  closed : ∀ part shown rest, hides part shown rest → tokenOf rest = []

theorem Tail.closed_seen (tail : Tail hides) {part shown rest : List Char} (allowed : hides part shown rest)
    (masked : Masked hides rest v) : tokenOf v = [] := by
  have less := tokenOf_masked tail.hidden masked
  rw [tail.closed _ _ _ allowed] at less
  exact byteLen_eq_zero (Nat.le_zero.mp less)

theorem Tail.spaced (tail : Tail hides) (masked : Masked hides u v) (spaced : Spaced u) : Spaced v := by
  rintro a b rfl
  have shape : redacted.toList = '[' :: "REDACTED]".toList := by decide
  rw [shape,List.cons_append] at masked
  have fresh (part shown rest : List Char) (allowed : hides part shown rest) :=
    (tail.hidden part shown rest allowed).opens (q := "REDACTED]".toList) (by decide)
  rcases Masked.source fresh masked with ⟨front, b', rfl, later⟩ |
    ⟨front, part, shown, rest, v', k, rfl, allowed, later, below, same⟩
  · exact lt_of_le_of_lt (tokenOf_masked tail.hidden later) (spaced front b' (by rw [shape,List.cons_append]))
  · have hidden := tail.hidden _ _ _ allowed
    have first : ∀ k < 10, (redacted.toList.drop k).head? = some '[' → k = 0 := by decide
    have filled : ∀ k < 10, redacted.toList.drop k ≠ [] := by decide
    have small := hidden.below below
    rw [hidden.1] at same
    obtain ⟨d, more, cut⟩ := List.exists_cons_of_ne_nil (filled k small)
    have opens : (redacted.toList.drop k).head? = some '[' := by
      rw [cut] at same ⊢
      rw [(List.cons.inj same).1]
      rfl
    rw [first k small opens,List.drop_zero,shape,List.cons_append] at same
    obtain rfl := List.append_cancel_left (List.cons.inj same).2
    rw [tail.closed_seen allowed later]
    decide

theorem Tail.tokens (tail : Tail hides) (masked : Masked hides u v) (spaced : TokensSpaced u) : TokensSpaced v := by
  rintro a part b rfl token ends
  obtain ⟨some_, plain⟩ := token.plain
  obtain ⟨c, q, rfl⟩ := List.exists_cons_of_ne_nil some_
  have fresh : '[' ∉ q := fun member => (plain '[' (List.mem_cons_of_mem c member)).2 rfl
  rcases Masked.source (fun part shown rest allowed => (tail.hidden part shown rest allowed).opens fresh) masked
    with ⟨front, b', rfl, later⟩ | ⟨front, part, shown, rest, v', k, rfl, allowed, later, below, same⟩
  · cases later with
    | nil => decide
    | keep d later =>
      have inText := spaced front (c :: q) _ rfl token (takeWhile_of_head fun e head => not_inToken_head ends e head)
      exact lt_of_le_of_lt (tokenOf_masked tail.hidden (.keep d later)) inText
    | hide allowed later =>
      have small := byteLen_tokenOf_append (y := redacted.toList) (tail.closed_seen allowed later)
      rw [(tail.hidden _ _ _ allowed).1]
      exact lt_of_le_of_lt small (by decide)
  · -- A placeholder has no digit.
    have hidden := tail.hidden _ _ _ allowed
    have digits : ∀ d ∈ redacted.toList, d.isDigit = false := by decide
    have inside := starts_inside below same
    rw [hidden.1] at inside
    have digit := token.digit
    rw [digits c inside] at digit
    cases digit

/-- A scheme stands in the text where it is seen, and the word in front of it. -/
theorem scheme_source (hidden : ∀ part shown rest, hides part shown rest → Hidden part shown) {m b : List Char}
    (word : ∀ c ∈ m, endsToken c = false) (named : '@' ∈ b) (masked : Masked hides u (m ++ (scheme ++ b))) :
    ∃ m' b', u = m' ++ (scheme ++ b') ∧ (∀ c ∈ m', endsToken c = false) ∧ '@' ∈ b' := by
  have plain (c : Char) (absent : c ∉ redacted.toList) (part shown rest : List Char) (allowed : hides part shown rest) :
      c ∉ shown := by rwa [(hidden part shown rest allowed).1]
  have fresh (part shown rest : List Char) (allowed : hides part shown rest) :
      ∃ d more, shown = d :: more ∧ d ∉ ['/', '/'] := (hidden part shown rest allowed).opens (by decide)
  obtain ⟨m', b', rfl, later, from_⟩ :=
    Masked.cut (c := ':') (q := ['/', '/']) (plain ':' (by decide)) fresh masked
  refine ⟨m', b', rfl, fun c member => ?_, Masked.mem (plain '@' (by decide)) later named⟩
  rcases from_ c member with seen | ⟨part, shown, rest, allowed, inside⟩
  · exact word c seen
  · exact (hidden part shown rest allowed).2.1 c inside

theorem unjoined_masked (hidden : ∀ part shown rest, hides part shown rest → Hidden part shown)
    (closed : ∀ part shown rest, hides part shown rest → tokenOf rest = [] ∨ TelegramToken part)
    (masked : Masked hides u v) (unjoined : Unjoined u) : Unjoined v := by
  rintro a part m b rfl opening word named
  obtain ⟨some_, plain⟩ := opening.plain
  obtain ⟨c, q, rfl⟩ := List.exists_cons_of_ne_nil some_
  have fresh : '[' ∉ q := fun member => (plain '[' (List.mem_cons_of_mem c member)).2 rfl
  rcases Masked.source (fun part shown rest allowed => (hidden part shown rest allowed).opens fresh) masked
    with ⟨front, b', rfl, later⟩ | ⟨front, part, shown, rest, v', k, rfl, allowed, later, below, same⟩
  · obtain ⟨m', b'', rfl, wordToo, namedToo⟩ := scheme_source hidden word named later
    exact unjoined front (c :: q) m' b'' rfl opening wordToo namedToo
  · have placed := hidden _ _ _ allowed
    rw [placed.1] at same
    obtain ⟨z, rfl, inside⟩ : ∃ z, v' = z ++ (scheme ++ b) ∧ ∀ d ∈ z, endsToken d = false := by
      have whole : redacted.toList.drop k ++ v' = ((c :: q) ++ m) ++ (scheme ++ b) := by
        rw [same,List.append_assoc]
        rfl
      rcases List.append_eq_append_iff.mp whole with ⟨z, front, behind⟩ | ⟨z, front, behind⟩
      · refine ⟨z, behind, fun d member => ?_⟩
        have from_ : d ∈ (c :: q) ++ m := front ▸ List.mem_append_right _ member
        exact (List.mem_append.mp from_).elim (fun inPart => (plain d inPart).1) (word d)
      · cases z with
        | nil => exact ⟨[], behind.symm, nofun⟩
        | cons d z =>
          have colon : ':' ∉ redacted.toList := by decide
          obtain rfl : ':' = d := (List.cons.inj behind).1
          exact absurd (List.mem_of_mem_drop (front ▸ List.mem_append_right _ List.mem_cons_self)) colon
    rcases closed _ _ _ allowed with ends | token
    · have less := tokenOf_masked hidden later
      rw [ends,tokenOf_append inside,byteLen_append] at less
      have some_ : tokenOf (scheme ++ b) = scheme ++ tokenOf b := tokenOf_append (by decide) b
      rw [some_,byteLen_append,show byteLen scheme = 3 by decide,show byteLen [] = 0 from rfl] at less
      omega
    · obtain ⟨m', b', rfl, wordToo, namedToo⟩ := scheme_source hidden inside named later
      exact unjoined front _ m' b' rfl (.inr token) wordToo namedToo

end

/-! The passes, one after the other. -/

theorem keys_tail {rule : Rule} (member : rule ∈ rules) : Tail (keyHides rule.lead.toList rule.minTotalLen) :=
  ⟨(rules_proper rule member).hidden, fun _ _ _ allowed => allowed.2.2.2.2⟩

theorem telegram_hidden (part shown rest : List Char) (allowed : telegramHides part shown rest) : Hidden part shown := by
  obtain ⟨rfl, token, -⟩ := allowed
  refine ⟨rfl, fun c member => (token.plain.2 c member).1, ?_⟩
  obtain ⟨digits, word, rfl, many, long, -, -⟩ := token
  have each (text : List Char) : text.length ≤ byteLen text := by
    induction text with
    | nil => exact Nat.le_refl 0
    | cons c rest ih =>
      have size := c.utf8Size_pos
      simp only [byteLen,List.map_cons,List.sum_cons,List.length_cons] at ih ⊢
      omega
  refine le_trans ?_ (each _)
  simp only [List.length_append,List.length_cons]
  omega

theorem Apart.key {rule : Rule} (member : rule ∈ rules) {text : List Char} (apart : Apart text) :
    Apart (redactPrefixTokens rule.lead.toList rule.minTotalLen text) := by
  have tail := keys_tail member
  have masked := redactPrefixTokens_masked member text
  exact ⟨tail.spaced masked apart.spaced, tail.tokens masked apart.tokens,
    unjoined_masked tail.hidden (fun part shown rest allowed => .inl (tail.closed part shown rest allowed)) masked
      apart.unjoined⟩

theorem Apart.keys {some_ : List Rule} (part : some_ ⊆ rules) {text : List Char} (apart : Apart text) :
    Apart (redactKeys some_ text) :=
  redactKeys_invariant (fun _ member _ => Apart.key (part member)) apart

/-- Behind the Telegram tokens too little stands to be a key. -/
theorem telegram_keyless {text : List Char} (keyless : Keyless text) (tokens : TokensSpaced text) :
    Keyless (redactTelegramTokens text) := by
  intro rule member matched
  rcases (rules_proper rule member).masked_matches telegram_hidden (telegram_masked text) matched
    with here | ⟨front, part, shown, rest, rfl, allowed, far⟩
  · exact keyless rule member here
  · exact absurd far (Nat.not_le.mpr (tokens front part rest rfl allowed.2.1 allowed.2.2))

/-- Behind a scheme a word is another one only where credentials are cut. -/
theorem credentials_word {u v : List Char} (masked : Masked credentialHides u v) : tokenOf v = tokenOf u ∨
    ∃ m b, u = m ++ (scheme ++ b) ∧ (∀ c ∈ m, endsToken c = false) ∧ '@' ∈ b := by
  induction masked with
  | nil => exact .inl rfl
  | keep c masked ih =>
    cases ends : endsToken c with
    | true => exact .inl (by simp [tokenOf,ends])
    | false =>
      rcases ih with same | ⟨m, b, rfl, word, named⟩
      · have step (rest : List Char) : tokenOf (c :: rest) = c :: tokenOf rest :=
          List.takeWhile_cons_of_pos (by simp [ends])
        exact .inl (by rw [step,step,same])
      · exact .inr ⟨c :: m, b, rfl, List.forall_mem_cons.mpr ⟨ends, word⟩, named⟩
  | @hide part shown rest v' allowed masked ih =>
    obtain ⟨-, creds, rfl, -⟩ := allowed
    exact .inr ⟨[], creds ++ '@' :: rest, by simp, by simp, by simp⟩

theorem db_keyless {text : List Char} (keyless : Keyless text) (unjoined : Unjoined text) :
    Keyless (redactDbConnectionStrings text) := by
  rintro rule member ⟨a, b, same, long⟩
  have proper := rules_proper rule member
  have opening : Opening rule.lead.toList := .inl ⟨rule, member, rfl⟩
  have apart := keyless rule member
  generalize rule.lead.toList = lead at *
  obtain ⟨c, q, rfl⟩ := List.exists_cons_of_ne_nil proper.some_
  have masked := db_masked text
  rw [same] at masked
  have fresh (part shown rest : List Char) (allowed : credentialHides part shown rest) :
      ∃ d more, shown = d :: more ∧ d ∉ q := by
    refine ⟨':', "//***@".toList, allowed.1.trans (by decide), fun inside => ?_⟩
    exact (proper.plain ':' (List.mem_cons_of_mem c inside)).2 (by decide)
  rcases Masked.source fresh masked with ⟨front, b', rfl, later⟩ |
    ⟨front, part, shown, rest, v', k, rfl, allowed, later, below, cut⟩
  · rcases credentials_word later with equal | ⟨m, b'', rfl, word, named⟩
    · exact apart ⟨front, b', rfl, equal ▸ long⟩
    · exact unjoined front (c :: q) m b'' rfl opening word named
  · have shown_ : ∀ d ∈ scheme ++ "***@".toList, d ∈ ['[', ']', ':', '/', '@', '*'] := by decide
    have inside := starts_inside below cut
    rw [allowed.1] at inside
    exact (proper.plain c List.mem_cons_self).2 (shown_ c inside)

/-! A match in a redacted text shows. -/

/-- The first difference is a placeholder in place of a token. -/
def Marked (u v : List Char) : Prop := ∃ front c x y, u = front ++ c :: y ∧ v = front ++ '[' :: x ∧ inToken c = true

theorem not_inToken_opens : inToken '[' = false := by decide

theorem Marked.ne {u v : List Char} (marked : Marked u v) : u ≠ v := by
  rintro rfl
  obtain ⟨front, c, x, y, rfl, same, word⟩ := marked
  rw [(List.cons.inj (List.append_cancel_left same)).1,not_inToken_opens] at word
  cases word

theorem Marked.trans {u v w : List Char} (first : Marked u v) (second : Marked v w) : Marked u w := by
  obtain ⟨front, c, x, y, rfl, rfl, word⟩ := first
  obtain ⟨front', c', x', y', same, rfl, word'⟩ := second
  rcases List.append_eq_append_iff.mp same with ⟨more, rfl, inner⟩ | ⟨more, rfl, inner⟩
  · cases more with
    | nil =>
      rw [← (List.cons.inj inner).1,not_inToken_opens] at word'
      cases word'
    | cons d more =>
      obtain rfl : '[' = d := (List.cons.inj inner).1
      exact ⟨front, c, more ++ '[' :: x', y, rfl, by simp, word⟩
  · cases more with
    | nil =>
      rw [(List.cons.inj inner).1,not_inToken_opens] at word'
      cases word'
    | cons d more =>
      obtain rfl : c' = d := (List.cons.inj inner).1
      exact ⟨front', c', x', more ++ c :: y, by simp, rfl, word'⟩

theorem Masked.marked {hides : List Char → List Char → List Char → Prop} {u v : List Char}
    (opens : ∀ part shown rest, hides part shown rest →
      shown = redacted.toList ∧ ∃ c more, part = c :: more ∧ inToken c = true)
    (masked : Masked hides u v) : u = v ∨ Marked u v := by
  induction masked with
  | nil => exact .inl rfl
  | keep c masked ih =>
    rcases ih with rfl | ⟨front, d, x, y, rfl, rfl, word⟩
    · exact .inl rfl
    · exact .inr ⟨c :: front, d, x, y, rfl, rfl, word⟩
  | hide allowed masked ih =>
    obtain ⟨rfl, c, more, rfl, word⟩ := opens _ _ _ allowed
    exact .inr ⟨[], c, _, _, rfl, rfl, word⟩

theorem keys_marked (text : List Char) : text = redactKeys rules text ∨ Marked text (redactKeys rules text) := by
  have first : ∀ rule ∈ rules, rule.lead.toList.head?.any inToken = true := by decide
  refine redactKeys_invariant (P := fun v => text = v ∨ Marked text v) (fun rule member u known => ?_) (.inl rfl)
  have step : u = redactPrefixTokens rule.lead.toList rule.minTotalLen u ∨
      Marked u (redactPrefixTokens rule.lead.toList rule.minTotalLen u) := by
    refine Masked.marked (fun part shown rest allowed => ⟨allowed.1, ?_⟩) (redactPrefixTokens_masked member u)
    obtain ⟨c, head, word⟩ := (Option.any_eq_true _ _).mp (first rule member)
    obtain ⟨more, same⟩ := List.head?_eq_some_iff.mp head
    obtain ⟨behind, rfl⟩ := allowed.2.1
    exact ⟨c, more ++ behind, by rw [same,List.cons_append], word⟩
  rcases known with rfl | marked
  · exact step
  · rcases step with same | again
    · exact .inr (same ▸ marked)
    · exact .inr (marked.trans again)

theorem telegram_marked (text : List Char) :
    text = redactTelegramTokens text ∨ Marked text (redactTelegramTokens text) := by
  refine Masked.marked (fun part shown rest allowed => ⟨allowed.1, ?_⟩) (telegram_masked text)
  obtain ⟨c, more, rfl⟩ := List.exists_cons_of_ne_nil allowed.2.1.plain.1
  exact ⟨c, more, rfl, inToken_of_digit allowed.2.1.digit⟩

/-- A difference is behind what both texts begin with. -/
theorem behind_common {pre rest rest' front x y : List Char} {c : Char} (word : inToken c = true)
    (here : pre ++ rest = front ++ '[' :: x) (there : pre ++ rest' = front ++ c :: y) :
    ∃ front', rest = front' ++ '[' :: x ∧ rest' = front' ++ c :: y := by
  rcases List.append_eq_append_iff.mp here with ⟨more, rfl, inner⟩ | ⟨more, rfl, inner⟩
  · rw [List.append_assoc] at there
    exact ⟨more, inner, List.append_cancel_left there⟩
  · cases more with
    | nil =>
      rw [List.append_nil] at there
      exact ⟨[], inner.symm, List.append_cancel_left there⟩
    | cons d more =>
      rw [List.append_assoc] at there
      have same := (List.cons.inj (List.append_cancel_left there)).1
      rw [← same,← (List.cons.inj inner).1,not_inToken_opens] at word
      cases word

theorem marked_db {s w : List Char} (marked : Marked s w) : redactDbConnectionStrings w ≠ s := by
  induction w using db_induct generalizing s with
  | plain text absent =>
    rw [db_none absent]
    exact marked.ne.symm
  | bare before remaining absent kept ih =>
    rintro rfl
    rw [db_bare absent kept] at marked
    obtain ⟨front, c, x, y, there, here, word⟩ := marked
    rw [← List.append_assoc] at here there
    obtain ⟨front', inner, shown⟩ := behind_common word here there
    exact ih ⟨front', c, x, y, shown, inner, word⟩ rfl
  | named before creds after absent found ih =>
    rintro rfl
    rw [db_cut absent found] at marked
    obtain ⟨front, c, x, y, there, here, word⟩ := marked
    rw [← List.append_assoc] at here there
    obtain ⟨front', inner, shown⟩ := behind_common word here there
    obtain ⟨same, split, free, named⟩ := credentials_eq_some.mp found
    obtain rfl := List.append_cancel_right split
    rcases List.append_eq_append_iff.mp inner with ⟨more, rfl, behind⟩ | ⟨more, rfl, -⟩
    · cases more with
      | nil => exact absurd (List.cons.inj behind).1 (by decide)
      | cons d more =>
        obtain rfl : '@' = d := (List.cons.inj behind).1
        have none_ := credentials_masked (redactDbConnectionStrings after)
        rw [shown,credentials_eq_some.mpr ⟨creds, by rw [List.append_assoc]; rfl, free, named⟩] at none_
        cases none_
    · -- The difference is among the credentials, which show four characters.
      have fresh : '@' ∉ front' := fun inside => free (List.mem_append_left more inside)
      rcases List.append_eq_append_iff.mp shown with ⟨tail, rfl, -⟩ | ⟨tail, masked, rest⟩
      · exact fresh (List.mem_append_left tail (by decide))
      · cases tail with
        | nil =>
          rw [List.append_nil] at masked
          exact fresh (masked ▸ by decide)
        | cons d tail =>
          obtain rfl : c = d := (List.cons.inj rest).1
          have outside : ∀ d ∈ "***@".toList, inToken d = false := by decide
          rw [outside c (masked ▸ List.mem_append_right front' List.mem_cons_self)] at word
          cases word

/-! Redaction once and again. -/

/-- A match that begins inside a placeholder. -/
def Breaks (lead : List Char) (minTotalLen : Nat) (text : List Char) : Prop :=
  ∃ a k b rest, k < 10 ∧ text = a ++ (redacted.toList ++ b) ∧ redacted.toList.drop k ++ b = lead ++ rest ∧
    minTotalLen ≤ byteLen lead + byteLen (tokenOf rest)

/-- No rule's pass, in its turn, takes a part of a placeholder for a key. -/
def Whole (text : List Char) : Prop :=
  ∀ done rule later, rules = done ++ rule :: later → ¬ Breaks rule.lead.toList rule.minTotalLen (redactKeys done text)

/-- What the passes hide. -/
def secretHides (part shown rest : List Char) : Prop :=
  (∃ rule ∈ rules, keyHides rule.lead.toList rule.minTotalLen part shown rest) ∨ telegramHides part shown rest ∨
    credentialHides part shown rest

/-- Nothing that any pass looks for. -/
def Plain (text : List Char) : Prop :=
  (∀ rule ∈ rules, ¬ rule.lead.toList <:+: text) ∧ (∀ d, d.isDigit = true → ¬ [d, ':'] <:+: text) ∧ ¬ scheme <:+: text ∧
    ∀ keyword ∈ keywords, ¬ keyword.toList <:+: text

def Settled (text : String) : Prop :=
  redact (redact text) = redact text ∧ Whole text.toList ∧ Whole (redact text).toList

theorem redact_toList (text : String) : (redact text).toList =
    redactDbConnectionStrings (redactTelegramTokens (redactKeys rules text.toList)) := by
  rw [redact,String.toList_ofList,redactBearerTokens_same]

theorem redact_same {text : String} (keys : redactKeys rules text.toList = text.toList)
    (tokens : redactTelegramTokens text.toList = text.toList)
    (named : redactDbConnectionStrings text.toList = text.toList) : redact text = text := by
  apply String.toList_inj.mp
  rw [redact_toList,keys,tokens,named]

theorem keyless_of_plain {text : List Char} (plain : ∀ rule ∈ rules, ¬ rule.lead.toList <:+: text) : Keyless text := by
  rintro rule member ⟨a, b, rfl, -⟩
  exact plain rule member ⟨a, b, by rw [List.append_assoc]⟩

theorem redact_plain {text : String} (plain : Plain text.toList) : redact text = text :=
  redact_same (redactKeys_same (List.Subset.refl rules) (keyless_of_plain plain.1)) (telegram_same plain.2.1)
    (db_none plain.2.2.1)

theorem redact_masked (text : String) :
    Relation.ReflTransGen (Masked secretHides) text.toList (redact text).toList := by
  rw [redact_toList]
  have keys : Relation.ReflTransGen (Masked secretHides) text.toList (redactKeys rules text.toList) :=
    redactKeys_invariant (P := Relation.ReflTransGen (Masked secretHides) text.toList)
      (fun rule member u before => before.tail ((redactPrefixTokens_masked member u).mono
        fun _ _ _ allowed => .inl ⟨rule, member, allowed⟩)) .refl
  refine (keys.tail ((telegram_masked _).mono ?_)).tail ((db_masked _).mono ?_)
  · exact fun _ _ _ allowed => .inr (.inl allowed)
  · exact fun _ _ _ allowed => .inr (.inr allowed)

/-- Redacting again changes a text exactly where a rule still matches. -/
theorem redact_redact_iff (text : String) : redact (redact text) = redact text ↔ Keyless (redact text).toList := by
  have tokens : redactTelegramTokens (redact text).toList = (redact text).toList := by
    rw [redact_toList]
    exact telegram_db (telegram_idempotent _)
  have named : redactDbConnectionStrings (redact text).toList = (redact text).toList := by
    rw [redact_toList]
    exact db_idempotent _
  constructor
  · intro same
    by_contra keys
    have again := redact_toList (redact text)
    rw [same] at again
    generalize (redact text).toList = s at *
    have marked : Marked s (redactKeys rules s) := by
      refine (keys_marked s).resolve_left fun unchanged => keys ?_
      rw [unchanged]
      exact redactKeys_keyless s
    refine marked_db ?_ again.symm
    rcases telegram_marked (redactKeys rules s) with unchanged | further
    · exact unchanged ▸ marked
    · exact marked.trans further
  · exact fun keyless => redact_same (redactKeys_same (List.Subset.refl rules) keyless) tokens named

theorem Breaks.matches {lead text : List Char} {minTotalLen : Nat} (breaks : Breaks lead minTotalLen text) :
    Matches lead minTotalLen text := by
  obtain ⟨a, k, b, rest, -, rfl, same, long⟩ := breaks
  refine ⟨a ++ redacted.toList.take k, rest, ?_, long⟩
  conv_lhs => rw [← List.take_append_drop k redacted.toList,List.append_assoc,same]
  rw [List.append_assoc]

theorem Spaced.unbroken {lead text : List Char} {minTotalLen : Nat} (proper : Proper lead minTotalLen)
    (spaced : Spaced text) : ¬ Breaks lead minTotalLen text := by
  rintro ⟨a, k, b, rest, below, rfl, same, long⟩
  exact absurd (proper.behind below same long) (Nat.not_le.mpr (spaced a b rfl))

theorem Apart.whole {text : List Char} (apart : Apart text) : Whole text := by
  intro done rule later split
  have part : done ⊆ rules := split ▸ List.subset_append_left _ _
  have member : rule ∈ rules := split ▸ List.mem_append_right _ List.mem_cons_self
  exact (apart.keys part).spaced.unbroken (rules_proper rule member)

theorem Keyless.whole {text : List Char} (keyless : Keyless text) : Whole text := by
  intro done rule later split breaks
  have part : done ⊆ rules := split ▸ List.subset_append_left _ _
  have member : rule ∈ rules := split ▸ List.mem_append_right _ List.mem_cons_self
  rw [redactKeys_same part keyless] at breaks
  exact keyless rule member breaks.matches

theorem Apart.keyless {text : String} (apart : Apart text.toList) : Keyless (redact text).toList := by
  have keyed := apart.keys (List.Subset.refl rules)
  rw [redact_toList]
  refine db_keyless (telegram_keyless (redactKeys_keyless _) keyed.tokens) ?_
  exact unjoined_masked telegram_hidden (fun _ _ _ allowed => .inr allowed.2.1) (telegram_masked _) keyed.unjoined

end Zaion.Safety
