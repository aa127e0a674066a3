import Zaion.Lib.Match
import Zaion.Lib.Words

/-! References in a message and their expansion. The words of the message are read for tokens,
and each token is then replaced wherever the text has it, one token after the other. -/
namespace Zaion.Agent

open Lib

inductive Reference where
  | file (path : String)
  | url (url : String)
  | git (path : String)
  | mem (query : String)
  deriving DecidableEq, Repr

structure RefError where
  reference : String
  reason : String
  deriving DecidableEq, Repr

def RefError.display (e : RefError) : String := "@" ++ e.reference ++ ": " ++ e.reason

def wordsOf (text : String) : List (List Char) := wordsFrom [] text.toList

def named (make : String → Reference) (rest : List Char) : Option Reference :=
  if rest = [] then none else some (make (String.ofList rest))

/-- The reference a word is, its end already trimmed. -/
def referenceOf (cleaned : List Char) : Option Reference :=
  match "@file:".toList.isPrefixOf? cleaned with
  | some path => named .file path
  | none =>
    match "@url:".toList.isPrefixOf? cleaned with
    | some url => named .url url
    | none =>
      match "@git:".toList.isPrefixOf? cleaned with
      | some path => named .git path
      | none =>
        match "@mem:".toList.isPrefixOf? cleaned with
        | some query => named .mem query
        | none => none

/-- What a token may end with; `alphanumeric` is `char::is_alphanumeric`. -/
def endsToken (alphanumeric : Char → Bool) (c : Char) : Bool :=
  alphanumeric c || c == '/' || c == '.' || c == '-' || c == '_' || c == ':' || c == '~'

/-- The reference of a word and its token. -/
def tokenOf (alphanumeric : Char → Bool) (word : List Char) : Option (Reference × String) :=
  let cleaned := word.rdropWhile (fun c => !endsToken alphanumeric c)
  (referenceOf cleaned).map (fun ref => (ref, String.ofList cleaned))

def parseReferences (alphanumeric : Char → Bool) (text : String) : List (Reference × String) :=
  (wordsOf text).filterMap (tokenOf alphanumeric)

/-- What a reference resolves to, for every reference and token. -/
abbrev Resolve := Reference → String → Except RefError String

/-- What takes the place of a token. -/
def Resolve.image (expandOne : Resolve) (ref : Reference × String) : List Char :=
  match expandOne ref.1 ref.2 with
  | .ok block => block.toList
  | .error e => ("[ERROR: " ++ e.display ++ "]").toList

def expandReferences (alphanumeric : Char → Bool) (expandOne : Resolve) (text : String) : String × List RefError :=
  let (result, errors) := (parseReferences alphanumeric text).foldl (fun (result, errors) ref =>
    match expandOne ref.1 ref.2 with
    | .ok block => (replaceAll ref.2.toList block.toList result, errors)
    | .error e => (replaceAll ref.2.toList ("[ERROR: " ++ e.display ++ "]").toList result, errors ++ [e])) (text.toList, [])
  (String.ofList result, errors)

/-- A word with its own token expanded, and nothing else of it. -/
def substituted (alphanumeric : Char → Bool) (expandOne : Resolve) (word : List Char) : List Char :=
  match tokenOf alphanumeric word with
  | some ref => expandOne.image ref ++ word.drop ref.2.toList.length
  | none => word

/-- The text with every word substituted at once. -/
def expandedAtOnce (alphanumeric : Char → Bool) (expandOne : Resolve) (text : String) : String :=
  String.ofList (mapWords (substituted alphanumeric expandOne) [] text.toList)

/-- No pass but its own touches a word: those before find no token in it, those after find none in
what it was expanded to. -/
structure Undisturbed (alphanumeric : Char → Bool) (expandOne : Resolve) (refs : List (Reference × String))
    (word : List Char) : Prop where
  plain : tokenOf alphanumeric word = none → ∀ ref ∈ refs, ¬ ref.2.toList <:+: word
  token : ∀ ref, tokenOf alphanumeric word = some ref → ∃ before after, refs = before ++ ref :: after ∧
    (∀ other ∈ before, ¬ other.2.toList <:+: word) ∧
    ∀ other ∈ after, ¬ other.2.toList <:+: substituted alphanumeric expandOne word

/-- At most one reference, whose token no other word holds. -/
def Single (alphanumeric : Char → Bool) (text : String) : Prop :=
  parseReferences alphanumeric text = [] ∨ ∃ ref, parseReferences alphanumeric text = [ref] ∧
    ∀ word ∈ wordsOf text, tokenOf alphanumeric word = none → ¬ ref.2.toList <:+: word

/-! Tokens. -/

section

variable {alphanumeric : Char → Bool} {expandOne : Resolve} {word : List Char} {ref : Reference × String}

theorem colon_of_reference {cleaned : List Char} {found : Reference} (is : referenceOf cleaned = some found) :
    ':' ∈ cleaned := by
  have colon {start : String} {rest : List Char} (shape : start.toList.isPrefixOf? cleaned = some rest)
      (inside : ':' ∈ start.toList) : ':' ∈ cleaned := by
    rw [← List.append_eq_of_isPrefixOf?_eq_some shape]
    exact List.mem_append_left _ inside
  unfold referenceOf at is
  split at is
  · next shape => exact colon shape (by decide)
  split at is
  · next shape => exact colon shape (by decide)
  split at is
  · next shape => exact colon shape (by decide)
  split at is
  · next shape => exact colon shape (by decide)
  · cases is

/-- A word with a token is the token and a trailing part, which has no colon. -/
theorem word_of_token (found : tokenOf alphanumeric word = some ref) :
    ∃ trailing, word = ref.2.toList ++ trailing ∧ ':' ∈ ref.2.toList ∧ ':' ∉ trailing := by
  obtain ⟨reference, is, rfl⟩ := Option.map_eq_some_iff.mp found
  refine ⟨word.rtakeWhile (fun c => !endsToken alphanumeric c), ?_, ?_, ?_⟩
  · rw [String.toList_ofList]
    exact List.rdropWhile_append_rtakeWhile.symm
  · rw [String.toList_ofList]
    exact colon_of_reference is
  · intro member
    have cut := List.mem_rtakeWhile_imp member
    simp [endsToken] at cut

theorem substituted_of_token {trailing : List Char} (found : tokenOf alphanumeric word = some ref)
    (shape : word = ref.2.toList ++ trailing) :
    substituted alphanumeric expandOne word = expandOne.image ref ++ trailing := by
  simp only [substituted,found]
  rw [shape,List.drop_left]

theorem substituted_nil : substituted alphanumeric expandOne [] = [] := by
  cases found : tokenOf alphanumeric [] with
  | none => simp only [substituted,found]
  | some ref =>
    obtain ⟨trailing, shape, colon, -⟩ := word_of_token found
    obtain ⟨empty, -⟩ := List.append_eq_nil_iff.mp shape.symm
    rw [empty] at colon
    cases colon

/-- What the tokens found in a text are like. -/
structure Token (token : List Char) : Prop where
  full : token ≠ []
  word : ∀ c ∈ token, isWhiteSpace c = false

theorem token_of_word (plain : ∀ c ∈ word, isWhiteSpace c = false) (found : tokenOf alphanumeric word = some ref) :
    Token ref.2.toList := by
  obtain ⟨trailing, rfl, colon, -⟩ := word_of_token found
  exact ⟨List.ne_nil_of_mem colon, fun c member => plain c (List.mem_append_left _ member)⟩

theorem words_plain {text : String} (member : word ∈ wordsOf text) : ∀ c ∈ word, isWhiteSpace c = false :=
  wordsFrom_plain (by simp) word member

theorem tokens_of_parse {text : String} : ∀ ref ∈ parseReferences alphanumeric text, Token ref.2.toList := by
  intro ref member
  obtain ⟨word, inside, found⟩ := List.mem_filterMap.mp member
  exact token_of_word (words_plain inside) found

/-- A token tells its reference. -/
theorem reference_of_token {other : List Char} {ref' : Reference × String} (found : tokenOf alphanumeric word = some ref)
    (again : tokenOf alphanumeric other = some ref') (same : ref.2 = ref'.2) : ref = ref' := by
  obtain ⟨reference, is, rfl⟩ := Option.map_eq_some_iff.mp found
  obtain ⟨reference', is', rfl⟩ := Option.map_eq_some_iff.mp again
  have cleaned := String.ofList_injective same
  rw [cleaned] at is
  rw [Option.some.inj (is.symm.trans is'),cleaned]

/-! Passes. -/

/-- The passes of the expansion, one reference after the other. -/
def passes (expandOne : Resolve) (refs : List (Reference × String)) (text : List Char) : List Char :=
  refs.foldl (fun text ref => replaceAll ref.2.toList (expandOne.image ref) text) text

theorem expandReferences_eq (text : String) : (expandReferences alphanumeric expandOne text).1 =
    String.ofList (passes expandOne (parseReferences alphanumeric text) text.toList) := by
  have fold (refs : List (Reference × String)) (start : List Char) (errors : List RefError) :
      (refs.foldl (fun (result, errors) ref => match expandOne ref.1 ref.2 with
        | .ok block => (replaceAll ref.2.toList block.toList result, errors)
        | .error e => (replaceAll ref.2.toList ("[ERROR: " ++ e.display ++ "]").toList result, errors ++ [e]))
        (start, errors)).1 = passes expandOne refs start := by
    induction refs generalizing start errors with
    | nil => rfl
    | cons ref refs ih =>
      rw [List.foldl_cons,passes,List.foldl_cons]
      cases resolved : expandOne ref.1 ref.2 with
      | ok block =>
        simp only [Resolve.image,resolved]
        exact ih _ _
      | error e =>
        simp only [Resolve.image,resolved]
        exact ih _ _
  simp only [expandReferences,fold]

theorem passes_append (refs refs' : List (Reference × String)) (text : List Char) :
    passes expandOne (refs ++ refs') text = passes expandOne refs' (passes expandOne refs text) := List.foldl_append ..

theorem passes_absent {refs : List (Reference × String)} {text : List Char} (tokens : ∀ ref ∈ refs, Token ref.2.toList)
    (absent : ∀ ref ∈ refs, ¬ ref.2.toList <:+: text) : passes expandOne refs text = text := by
  induction refs with
  | nil => rfl
  | cons ref refs ih =>
    rw [passes,List.foldl_cons,replaceAll_absent (tokens ref List.mem_cons_self).full (absent ref List.mem_cons_self)]
    exact ih (fun other member => tokens other (List.mem_cons_of_mem _ member))
      (fun other member => absent other (List.mem_cons_of_mem _ member))

/-- A pass goes through the words on their own. -/
theorem replaceAll_mapWords {token : List Char} (is : Token token) (new : List Char) (f : List Char → List Char)
    (word text : List Char) :
    replaceAll token new (mapWords f word text) = mapWords (fun w => replaceAll token new (f w)) word text := by
  induction text generalizing word with
  | nil => rfl
  | cons c rest ih =>
    rw [mapWords,mapWords]
    split
    · next white =>
      have foreign : c ∉ token := by
        intro member
        rw [is.word c member] at white
        cases white
      rw [replaceAll_break is.full foreign,ih]
    · exact ih (word ++ [c])

theorem passes_mapWords {refs : List (Reference × String)} (tokens : ∀ ref ∈ refs, Token ref.2.toList)
    (f : List Char → List Char) (word text : List Char) :
    passes expandOne refs (mapWords f word text) = mapWords (fun w => passes expandOne refs (f w)) word text := by
  induction refs generalizing f with
  | nil => rfl
  | cons ref refs ih =>
    rw [passes,List.foldl_cons,replaceAll_mapWords (tokens ref List.mem_cons_self)]
    exact ih (fun other member => tokens other (List.mem_cons_of_mem _ member)) _

theorem passes_words {refs : List (Reference × String)} (tokens : ∀ ref ∈ refs, Token ref.2.toList) (text : List Char) :
    passes expandOne refs text = mapWords (passes expandOne refs) [] text := by
  conv_lhs => rw [← List.nil_append text,← mapWords_id [] text]
  exact passes_mapWords tokens id [] text

theorem passes_nil {refs : List (Reference × String)} (tokens : ∀ ref ∈ refs, Token ref.2.toList) :
    passes expandOne refs [] = [] :=
  passes_absent tokens (fun ref member occurs => (tokens ref member).full (List.infix_nil.mp occurs))

/-- The pass of its own token expands a word once. -/
theorem replaceAll_own {trailing : List Char} (colon : ':' ∈ ref.2.toList) (free : ':' ∉ trailing) :
    replaceAll ref.2.toList (expandOne.image ref) (ref.2.toList ++ trailing) = expandOne.image ref ++ trailing := by
  have some_ : ref.2.toList ≠ [] := List.ne_nil_of_mem colon
  have absent : ¬ ref.2.toList <:+: trailing := fun occurs => free (occurs.subset colon)
  rw [replaceAll_match some_,replaceAll_absent some_ absent]

theorem passes_undisturbed {refs : List (Reference × String)} (tokens : ∀ ref ∈ refs, Token ref.2.toList)
    (undisturbed : Undisturbed alphanumeric expandOne refs word) :
    passes expandOne refs word = substituted alphanumeric expandOne word := by
  cases found : tokenOf alphanumeric word with
  | none =>
    rw [passes_absent tokens (undisturbed.plain found)]
    simp only [substituted,found]
  | some ref =>
    obtain ⟨before, after, rfl, early, late⟩ := undisturbed.token ref found
    obtain ⟨trailing, shape, colon, free⟩ := word_of_token found
    have own : replaceAll ref.2.toList (expandOne.image ref) word = substituted alphanumeric expandOne word := by
      rw [substituted_of_token found shape,shape,replaceAll_own colon free]
    rw [passes_append,passes_absent (fun other member => tokens other (List.mem_append_left _ member)) early]
    rw [passes,List.foldl_cons,own]
    exact passes_absent (fun other member => tokens other (List.mem_append_right _ (List.mem_cons_of_mem _ member))) late

/-- Words no other pass touches are expanded at once. -/
theorem expanded_of_undisturbed {text : String}
    (undisturbed : ∀ word ∈ wordsOf text, Undisturbed alphanumeric expandOne (parseReferences alphanumeric text) word) :
    (expandReferences alphanumeric expandOne text).1 = expandedAtOnce alphanumeric expandOne text := by
  rw [expandReferences_eq,passes_words tokens_of_parse,expandedAtOnce]
  congr 1
  refine mapWords_congr ?_ ?_
  · rw [passes_nil tokens_of_parse,substituted_nil]
  · exact fun word member => passes_undisturbed tokens_of_parse (undisturbed word member)

theorem undisturbed_of_single {text : String} (single : Single alphanumeric text) :
    ∀ word ∈ wordsOf text, Undisturbed alphanumeric expandOne (parseReferences alphanumeric text) word := by
  intro word member
  have listed (ref : Reference × String) (found : tokenOf alphanumeric word = some ref) :
      ref ∈ parseReferences alphanumeric text := List.mem_filterMap.mpr ⟨word, member, found⟩
  rcases single with none_ | ⟨ref, one, alone⟩
  · rw [none_] at listed ⊢
    exact ⟨by simp, fun ref found => absurd (listed ref found) (by simp)⟩
  · rw [one] at listed ⊢
    constructor
    · intro plain other is
      obtain rfl := List.mem_singleton.mp is
      exact alone word member plain
    · intro other found
      obtain rfl := List.mem_singleton.mp (listed other found)
      exact ⟨[], [], rfl, by simp, by simp⟩

/-! Expansions that show what passes do to each other. -/

/-- Every token is expanded to itself and a colon. -/
def growing : Resolve := fun _ token => .ok (token ++ ":")

/-- One token is expanded to another, and that one to a blank. -/
def chained (first second : String) : Resolve := fun _ token =>
  .ok (if token = first then second else if token = second then " " else token)

/-- With every reference the same, a word with the token grows in each pass. -/
theorem passes_growing {refs : List (Reference × String)} {token : String} (is : Token token.toList)
    (same : ∀ ref ∈ refs, ref.2 = token) (text : List Char) :
    text.length ≤ (passes growing refs text).length ∧
      (token.toList <:+: text → text.length + refs.length ≤ (passes growing refs text).length) := by
  induction refs generalizing text with
  | nil => exact ⟨Nat.le_refl _, fun _ => Nat.le_refl _⟩
  | cons ref refs ih =>
    have later := fun other member => same other (List.mem_cons_of_mem _ member)
    have image : growing.image ref = ref.2.toList ++ [':'] := by simp [growing,Resolve.image]
    rw [passes,List.foldl_cons,image,same ref List.mem_cons_self]
    obtain ⟨longer, occurring⟩ := length_replaceAll is.full [':'] text
    obtain ⟨more, still⟩ := ih later (replaceAll token.toList (token.toList ++ [':']) text)
    rw [passes] at more still
    refine ⟨by omega, ?_⟩
    intro occurs
    have here := occurring occurs
    have grown : token.toList ++ [':'] <:+: replaceAll token.toList (token.toList ++ [':']) text :=
      infix_replaceAll is.full occurs
    have grown := still ((List.prefix_append token.toList [':']).isInfix.trans grown)
    simp only [List.length_cons,List.length_nil] at here ⊢
    omega

theorem length_substituted (word : List Char) : (substituted alphanumeric growing word).length =
    word.length + (tokenOf alphanumeric word).toList.length := by
  cases found : tokenOf alphanumeric word with
  | none => simp [substituted,found]
  | some ref =>
    obtain ⟨trailing, shape, -⟩ := word_of_token found
    rw [substituted_of_token found shape,shape]
    simp [growing,Resolve.image]
    omega

/-- With one token in all references, there is one reference, and no other word has its token. -/
theorem single_of_growing {text : String} {ref : Reference × String} (listed : ref ∈ parseReferences alphanumeric text)
    (same : ∀ other ∈ parseReferences alphanumeric text, other.2 = ref.2)
    (once : (expandReferences alphanumeric growing text).1 = expandedAtOnce alphanumeric growing text) :
    Single alphanumeric text := by
  have is := tokens_of_parse ref listed
  rw [expandReferences_eq,passes_words tokens_of_parse,expandedAtOnce] at once
  have lengths := congrArg List.length (String.ofList_injective once)
  have blank : substituted alphanumeric growing [] = passes growing (parseReferences alphanumeric text) [] := by
    rw [passes_nil tokens_of_parse,substituted_nil]
  have some_ : 1 ≤ (parseReferences alphanumeric text).length := List.length_pos_of_mem listed
  have token (word : List Char) (member : word ∈ wordsOf text) (other : Reference × String)
      (found : tokenOf alphanumeric word = some other) : ref.2.toList <:+: word := by
    obtain ⟨trailing, shape, -⟩ := word_of_token found
    have here := same other (List.mem_filterMap.mpr ⟨word, member, found⟩)
    rw [shape,here]
    exact (List.prefix_append _ trailing).isInfix
  have below : ∀ word ∈ wordsOf text, (substituted alphanumeric growing word).length ≤
      (passes growing (parseReferences alphanumeric text) word).length := by
    intro word member
    obtain ⟨longer, occurring⟩ := passes_growing is same word
    rw [length_substituted]
    cases found : tokenOf alphanumeric word with
    | none => simpa using longer
    | some other =>
      have grown := occurring (token word member other found)
      simp only [Option.toList_some,List.length_singleton]
      omega
  have equal (word : List Char) (member : word ∈ wordsOf text) :
      ¬ (substituted alphanumeric growing word).length < (passes growing (parseReferences alphanumeric text) word).length := by
    intro less
    have longer := length_mapWords_lt blank below member less
    omega
  obtain ⟨own, inside, found⟩ := List.mem_filterMap.mp listed
  have one : (parseReferences alphanumeric text).length = 1 := by
    have grown := (passes_growing is same own).2 (token own inside ref found)
    have still := equal own inside
    rw [length_substituted,found,Option.toList_some,List.length_singleton] at still
    omega
  refine .inr ⟨ref, ?_, ?_⟩
  · obtain ⟨only, shape⟩ := List.length_eq_one_iff.mp one
    rw [shape] at listed ⊢
    rw [List.mem_singleton.mp listed]
  · intro word member plain occurs
    have grown := (passes_growing is same word).2 occurs
    have still := equal word member
    rw [length_substituted,plain,Option.toList_none,List.length_nil] at still
    omega

/-- What one token is expanded to, a later pass expands again. -/
theorem same_of_chained {text : String} {init : List (Reference × String)} {ref last : Reference × String}
    (refs : parseReferences alphanumeric text = init ++ [last]) (listed : ref ∈ parseReferences alphanumeric text)
    (once : (expandReferences alphanumeric (chained ref.2 last.2) text).1 =
      expandedAtOnce alphanumeric (chained ref.2 last.2) text) : ref.2 = last.2 := by
  by_contra other
  have is := tokens_of_parse last (by rw [refs]; simp)
  have foreign : ' ' ∉ last.2.toList := by
    intro member
    have visible := is.word ' ' member
    revert visible
    decide
  have gone : ¬ last.2.toList <:+: passes (chained ref.2 last.2) (parseReferences alphanumeric text) text.toList := by
    have image : Resolve.image (chained ref.2 last.2) last = [' '] := by
      simp [Resolve.image,chained,Ne.symm other]
    rw [refs,passes_append,passes,List.foldl_cons,image,List.foldl_nil]
    exact not_infix_replaceAll is.full foreign _
  obtain ⟨word, inside, found⟩ := List.mem_filterMap.mp listed
  obtain ⟨trailing, shape, -⟩ := word_of_token found
  have image : Resolve.image (chained ref.2 last.2) ref = last.2.toList := by simp [Resolve.image,chained]
  have stands : last.2.toList <:+: substituted alphanumeric (chained ref.2 last.2) word := by
    rw [substituted_of_token found shape,image]
    exact (List.prefix_append _ trailing).isInfix
  rw [expandReferences_eq,expandedAtOnce] at once
  rw [String.ofList_injective once] at gone
  exact gone (stands.trans (infix_mapWords inside))

/-- Words that no other pass touches are expanded all at once. However the references resolve,
a text is expanded at once exactly when it has no reference, or one whose token no other word
holds. -/
theorem expanded_at_once_iff (alphanumeric : Char → Bool) :
    (∀ (expandOne : Resolve) (text : String),
      (∀ word ∈ wordsOf text, Undisturbed alphanumeric expandOne (parseReferences alphanumeric text) word) →
      (expandReferences alphanumeric expandOne text).1 = expandedAtOnce alphanumeric expandOne text) ∧
    ∀ text : String, (∀ expandOne : Resolve,
      (expandReferences alphanumeric expandOne text).1 = expandedAtOnce alphanumeric expandOne text) ↔
      Single alphanumeric text := by
  refine ⟨fun _ _ => expanded_of_undisturbed, fun text => ⟨?_, ?_⟩⟩
  · intro once
    rcases List.eq_nil_or_concat (parseReferences alphanumeric text) with none_ | ⟨init, last, refs⟩
    · exact .inl none_
    · rw [List.concat_eq_append] at refs
      have listed : last ∈ parseReferences alphanumeric text := by
        rw [refs]
        simp
      exact single_of_growing listed (fun ref member => same_of_chained refs member (once _)) (once _)
  · exact fun single _ => expanded_of_undisturbed (undisturbed_of_single single)

end

/-- ASCII letters and digits are alphanumeric. -/
def asciiAlphanumeric (c : Char) : Bool := c.isAlphanum

/-- The header of the first block names the other file. -/
def sampleResolve : Resolve := fun ref token =>
  match ref with
  | .file path => .ok ("```\n// " ++ path ++ "\nsee @file:b\n```")
  | _ => .error ⟨token, "not here"⟩

theorem lone_reference_expanded : (expandReferences asciiAlphanumeric sampleResolve "see @file:c, please").1 =
    expandedAtOnce asciiAlphanumeric sampleResolve "see @file:c, please" :=
  ((expanded_at_once_iff asciiAlphanumeric).2 _).mpr
    (.inr ⟨(.file "c", "@file:c"), by decide, by decide⟩) sampleResolve

/-- A block is expanded again where it names a later token, and a token is expanded where it begins another. -/
theorem blocks_expanded_again :
    (expandReferences asciiAlphanumeric sampleResolve "@file:a @file:b").1 ≠
      expandedAtOnce asciiAlphanumeric sampleResolve "@file:a @file:b" ∧
    (expandReferences asciiAlphanumeric (fun _ token => .ok (if token = "@file:a" then "X" else "Y")) "@file:a @file:ab").1 =
      "X Xb" := by
  constructor <;> decide

end Zaion.Agent
