import Zaion.Secrets.Store

/-! What the encrypted store gives back when its file is rearranged. The encryption is ideal: a
ciphertext opens only under the nonce it was made with. The name of a secret takes no part in it. -/
namespace Zaion.Secrets.Bound

open Zaion.Lib EncryptedStore

/-- A text sealed by a call of `set`. -/
structure Sealed where
  name : String
  nonce : List UInt8
  plaintext : String
  deriving DecidableEq

def Sealed.bytes (s : Sealed) : List UInt8 := s.plaintext.toByteArray.toList

def wasMade (made : List Sealed) (nonce plain : List UInt8) : Bool :=
  made.any fun s => decide (s.nonce = nonce ∧ s.bytes = plain)

theorem wasMade_iff {made : List Sealed} {nonce plain : List UInt8} :
    wasMade made nonce plain = true ↔ ∃ s ∈ made, s.nonce = nonce ∧ s.bytes = plain := by
  simp [wasMade]

/-- The encryption as ideal: what was not sealed does not open. -/
def ideal (cipher : Cipher) (made : List Sealed) : Cipher where
  encrypt nonce plain := if wasMade made nonce plain then cipher.encrypt nonce plain else none
  decrypt nonce sealed_ := (cipher.decrypt nonce sealed_).filter fun plain =>
    wasMade made nonce plain && decide (cipher.encrypt nonce plain = some sealed_)
  opens nonce plain sealed_ done := by
    split at done
    · next before => simp [cipher.opens _ _ _ done,before,done]
    · cases done

/-- The store, everything sealed for it, and by name the last value set. -/
structure World where
  file : Doc Entries
  made : List Sealed
  stored : String → Option String
  /-- Nobody else wrote the file, and no write stopped part-way. -/
  whole : Bool

inductive Act where
  | set (name plaintext : String) (source : SecretSource) (nonce : Nonce) (now : String) (written : Written)
  | delete (name : String) (written : Written)
  | tamper (file : Doc Entries)

def update (stored : String → Option String) (name : String) (value : Option String) (other : String) : Option String :=
  if other = name then value else stored other

def start : World := ⟨.absent, [], fun _ => none, true⟩

def step (cipher : Cipher) (w : World) : Act → World
  | .set name plaintext source nonce now written =>
    let made := ⟨name, nonce.val, plaintext⟩ :: w.made
    let result := EncryptedStore.set (ideal cipher made) name plaintext source nonce now written w.file
    { file := result.2
      made := made
      stored := if result.1 = .ok () then update w.stored name (some plaintext) else w.stored
      whole := w.whole && decide (written ≠ .torn) }
  | .delete name written =>
    let result := EncryptedStore.delete name written w.file
    { w with
      file := result.2
      stored := if result.1 = .ok () then update w.stored name none else w.stored
      whole := w.whole && decide (written ≠ .torn) }
  | .tamper file => { w with file := file, whole := false }

def run (cipher : Cipher) (acts : List Act) : World := acts.foldl (step cipher) start

/-- What `get` gives in a state. -/
def got (cipher : Cipher) (w : World) (name : String) : Except SecretsError String :=
  EncryptedStore.get (ideal cipher w.made) name w.file

/-- The answer is an error, or a text that was set under the name. -/
def Safe (cipher : Cipher) (w : World) (name : String) : Prop :=
  got cipher w name ≠ .error .panicked ∧
    ∀ value, got cipher w name = .ok value → ∃ s ∈ w.made, s.name = name ∧ s.plaintext = value

/-- The entry is the sealed text. -/
def Carries (cipher : Cipher) (entry : SecretEntry) (s : Sealed) : Prop :=
  hexDecode entry.nonceHex = some s.nonce ∧
    ∃ sealed_, hexDecode entry.ciphertextHex = some sealed_ ∧ cipher.encrypt s.nonce s.bytes = some sealed_

/-- The entry filed under the name has a nonce of twelve bytes, or none, and what it carries was set under the name. -/
def EntryBound (cipher : Cipher) (w : World) (name : String) (entry : SecretEntry) : Prop :=
  (∀ nonce, hexDecode entry.nonceHex = some nonce → nonce.length = 12) ∧
    ∀ s ∈ w.made, Carries cipher entry s → ∃ own ∈ w.made, own.name = name ∧ own.plaintext = s.plaintext

def Filed (w : World) (name : String) (entry : SecretEntry) : Prop :=
  ∃ entries, loadFile w.file = .ok entries ∧ entries.lookup name = some entry

section

variable {cipher : Cipher} {w : World} {name value : String} {entry : SecretEntry}
  {result : Except SecretsError Unit × Doc Entries}

theorem ideal_decrypt_iff {made : List Sealed} {nonce sealed_ plain : List UInt8} :
    (ideal cipher made).decrypt nonce sealed_ = some plain ↔
      cipher.encrypt nonce plain = some sealed_ ∧ ∃ s ∈ made, s.nonce = nonce ∧ s.bytes = plain := by
  simp only [ideal,Option.filter_eq_some_iff,Bool.and_eq_true,wasMade_iff,decide_eq_true_eq]
  exact ⟨fun ⟨_, made, sealed⟩ => ⟨sealed, made⟩, fun ⟨sealed, made⟩ => ⟨cipher.opens _ _ _ sealed, made, sealed⟩⟩

theorem decode_bytes (s : Sealed) : decodeUtf8 s.bytes = some s.plaintext := decodeUtf8_eq_some.mpr rfl

theorem got_filed (filed : Filed w name entry) : got cipher w name = open_ (ideal cipher w.made) entry := by
  obtain ⟨entries, loaded, found⟩ := filed
  rw [got,get_of_load loaded,found]

theorem got_unfiled (cipher : Cipher) (unfiled : ∀ entry, ¬ Filed w name entry) : ∃ e, got cipher w name = .error e ∧ e ≠ .panicked := by
  cases loaded : loadFile w.file with
  | error e =>
    refine ⟨e, by rw [got,EncryptedStore.get,loaded], ?_⟩
    rintro rfl
    unfold loadFile at loaded
    split at loaded <;> cases loaded
  | ok entries =>
    cases found : entries.lookup name with
    | none => exact ⟨.notFound name, by rw [got,get_of_load loaded,found], by simp⟩
    | some entry => exact absurd ⟨entries, loaded, found⟩ (unfiled entry)

/-- An entry opens to the texts it carries. -/
theorem open_ok_iff {made : List Sealed} : open_ (ideal cipher made) entry = .ok value ↔
    (∀ nonce, hexDecode entry.nonceHex = some nonce → nonce.length = 12) ∧
      ∃ s ∈ made, Carries cipher entry s ∧ s.plaintext = value := by
  constructor
  · intro opened
    cases nonce : hexDecode entry.nonceHex with
    | none => simp [open_,nonce] at opened
    | some bytes =>
      by_cases twelve : bytes.length = 12
      · cases coded : hexDecode entry.ciphertextHex with
        | none => simp [open_,nonce,twelve,coded] at opened
        | some sealed_ =>
          cases decrypted : (ideal cipher made).decrypt bytes sealed_ with
          | none => simp [open_,nonce,twelve,coded,decrypted] at opened
          | some plain =>
            obtain ⟨encrypted, s, member, rfl, rfl⟩ := ideal_decrypt_iff.mp decrypted
            simp only [open_,nonce,twelve,coded,decrypted,decode_bytes] at opened
            refine ⟨fun _ same => Option.some.inj same ▸ twelve, s, member, ⟨nonce, sealed_, coded, encrypted⟩, ?_⟩
            simpa using opened
      · simp [open_,nonce,twelve] at opened
  · rintro ⟨twelve, s, member, ⟨nonce, sealed_, coded, encrypted⟩, rfl⟩
    have decrypted := ideal_decrypt_iff.mpr ⟨encrypted, s, member, rfl, rfl⟩
    simp [open_,nonce,twelve _ nonce,coded,decrypted,decode_bytes]

theorem open_panicked_iff {made : List Sealed} : open_ (ideal cipher made) entry = .error .panicked ↔
    ∃ nonce, hexDecode entry.nonceHex = some nonce ∧ nonce.length ≠ 12 := by
  cases nonce : hexDecode entry.nonceHex with
  | none => simp [open_,nonce]
  | some bytes =>
    by_cases twelve : bytes.length = 12
    · simp only [open_,nonce,twelve,Option.some.injEq,exists_eq_left',ne_eq,not_true_eq_false,iff_false,if_false]
      repeat' split
      all_goals simp
    · simp [open_,nonce,twelve]

/-- What is given back is safe exactly when the entry under the name is bound to it. -/
theorem safe_iff : Safe cipher w name ↔ ∀ entry, Filed w name entry → EntryBound cipher w name entry := by
  constructor
  · rintro ⟨calm, own⟩ entry filed
    rw [got_filed filed] at calm own
    have twelve : ∀ nonce, hexDecode entry.nonceHex = some nonce → nonce.length = 12 := fun nonce decoded => by
      by_contra long
      exact calm (open_panicked_iff.mpr ⟨nonce, decoded, long⟩)
    exact ⟨twelve, fun s member carries => own _ (open_ok_iff.mpr ⟨twelve, s, member, carries, rfl⟩)⟩
  · intro bound
    by_cases filed : ∃ entry, Filed w name entry
    · obtain ⟨entry, filed⟩ := filed
      obtain ⟨twelve, own⟩ := bound entry filed
      rw [Safe,got_filed filed]
      constructor
      · intro panicked
        obtain ⟨nonce, decoded, long⟩ := open_panicked_iff.mp panicked
        exact long (twelve nonce decoded)
      · intro value opened
        obtain ⟨-, s, member, carries, rfl⟩ := open_ok_iff.mp opened
        exact own s member carries
    · obtain ⟨e, failed, calm⟩ := got_unfiled cipher (not_exists.mp filed)
      rw [Safe,failed]
      exact ⟨fun same => calm (Except.error.inj same), fun _ none_ => nomatch none_⟩

/-- The entries of an untouched file: under each name the last value set, as it was sealed. -/
def Faithful (cipher : Cipher) (w : World) (entries : Entries) : Prop :=
  ∀ name, (entries.lookup name = none ↔ w.stored name = none) ∧ ∀ entry, entries.lookup name = some entry →
    ∃ s ∈ w.made, w.stored name = some s.plaintext ∧ s.nonce.length = 12 ∧ Carries cipher entry s

/-- While nobody else writes the file. -/
def Inv (cipher : Cipher) (w : World) : Prop :=
  w.whole = true → ∃ entries, loadFile w.file = .ok entries ∧ Faithful cipher w entries

theorem Faithful.grown {entries : Entries} (faithful : Faithful cipher w entries) (s : Sealed) (file : Doc Entries) (whole : Bool) :
    Faithful cipher ⟨file, s :: w.made, w.stored, whole⟩ entries := by
  intro name
  obtain ⟨none_, filed⟩ := faithful name
  refine ⟨none_, fun entry found => ?_⟩
  obtain ⟨t, member, rest⟩ := filed entry found
  exact ⟨t, List.mem_cons_of_mem _ member, rest⟩

theorem inv_start : Inv cipher start := by
  intro _
  exact ⟨[], rfl, fun name => ⟨by simp [start], by simp⟩⟩

/-- A `set` that is not torn fails and leaves the file, or files an entry that carries the text. -/
theorem set_outcome {plaintext now : String} {source : SecretSource} {nonce : Nonce} {written : Written} {file : Doc Entries}
    {entries : Entries} {made : List Sealed} (loaded : loadFile file = .ok entries) (untorn : written ≠ .torn)
    (outcome : EncryptedStore.set (ideal cipher (⟨name, nonce.val, plaintext⟩ :: made)) name plaintext source nonce now written file =
      result) : (result.1 ≠ .ok () ∧ result.2 = file) ∨ (result.1 = .ok () ∧
        ∃ entry, result.2 = .holds (entries.insert name entry) ∧ Carries cipher entry ⟨name, nonce.val, plaintext⟩) := by
  have sealing : (ideal cipher (⟨name, nonce.val, plaintext⟩ :: made)).encrypt nonce.val plaintext.toByteArray.toList =
      cipher.encrypt nonce.val plaintext.toByteArray.toList := if_pos (wasMade_iff.mpr ⟨_, List.mem_cons_self, rfl, rfl⟩)
  rw [EncryptedStore.set,sealing] at outcome
  cases encrypted : cipher.encrypt nonce.val plaintext.toByteArray.toList with
  | none =>
    rw [encrypted] at outcome
    exact .inl (outcome ▸ ⟨by simp, rfl⟩)
  | some sealed_ =>
    rw [encrypted] at outcome
    simp only [loaded] at outcome
    cases written with
    | done =>
      refine .inr (outcome ▸ ⟨rfl, _, rfl, ?_⟩)
      exact ⟨hexDecode_hexEncode _, sealed_, hexDecode_hexEncode _, encrypted⟩
    | refused => exact .inl (outcome ▸ ⟨by simp [Doc.write], rfl⟩)
    | torn => exact absurd rfl untorn

theorem delete_outcome {written : Written} {file : Doc Entries} {entries : Entries} (loaded : loadFile file = .ok entries)
    (untorn : written ≠ .torn) (outcome : EncryptedStore.delete name written file = result) :
    (result.1 ≠ .ok () ∧ result.2 = file) ∨ (result.1 = .ok () ∧ result.2 = .holds (entries.remove name)) := by
  rw [EncryptedStore.delete] at outcome
  simp only [loaded] at outcome
  split at outcome
  · exact .inl (outcome ▸ ⟨by simp, rfl⟩)
  · cases written with
    | done => exact .inr (outcome ▸ ⟨rfl, rfl⟩)
    | refused => exact .inl (outcome ▸ ⟨by simp [Doc.write], rfl⟩)
    | torn => exact absurd rfl untorn

theorem Faithful.insert {entries : Entries} {s : Sealed} (faithful : Faithful cipher w entries) (named : s.name = name)
    (twelve : s.nonce.length = 12) (carries : Carries cipher entry s) (file : Doc Entries) (whole : Bool) :
    Faithful cipher ⟨file, s :: w.made, update w.stored name (some s.plaintext), whole⟩ (entries.insert name entry) := by
  intro other
  by_cases same : other = name
  · subst same
    rw [lookup_insert_same]
    refine ⟨by simp [update], fun found opened => ?_⟩
    cases opened
    exact ⟨s, List.mem_cons_self, by simp [update], twelve, carries⟩
  · rw [lookup_insert_other entries entry same]
    have kept := (faithful.grown s file whole) other
    simpa [update,same] using kept

theorem Faithful.remove {entries : Entries} (faithful : Faithful cipher w entries) (name : String) (file : Doc Entries) (whole : Bool) :
    Faithful cipher ⟨file, w.made, update w.stored name none, whole⟩ (entries.remove name) := by
  intro other
  by_cases same : other = name
  · subst same
    rw [lookup_remove_same]
    exact ⟨by simp [update], by simp⟩
  · rw [lookup_remove_other entries same]
    simpa [update,same] using faithful other

theorem inv_step (inv : Inv cipher w) (act : Act) : Inv cipher (step cipher w act) := by
  cases act with
  | set name plaintext source nonce now written =>
    intro whole
    simp only [step,Bool.and_eq_true,decide_eq_true_eq] at whole
    obtain ⟨entries, loaded, faithful⟩ := inv whole.1
    rw [step]
    rcases set_outcome loaded whole.2 rfl with ⟨failed, file⟩ | ⟨done, entry, file, carries⟩
    · rw [if_neg failed,file]
      exact ⟨entries, loaded, faithful.grown _ _ _⟩
    · rw [if_pos done,file]
      exact ⟨_, rfl, faithful.insert rfl nonce.property carries _ _⟩
  | delete name written =>
    intro whole
    simp only [step,Bool.and_eq_true,decide_eq_true_eq] at whole
    obtain ⟨entries, loaded, faithful⟩ := inv whole.1
    rw [step]
    rcases delete_outcome loaded whole.2 rfl with ⟨failed, file⟩ | ⟨done, file⟩
    · rw [if_neg failed,file]
      exact ⟨entries, loaded, faithful⟩
    · rw [if_pos done,file]
      exact ⟨_, rfl, faithful.remove name _ _⟩
  | tamper file =>
    intro whole
    cases whole

theorem inv_run (acts : List Act) : Inv cipher (run cipher acts) := by
  induction acts using List.reverseRecOn with
  | nil => exact inv_start
  | append_singleton acts act ih =>
    rw [run,List.foldl_append]
    exact inv_step ih act

/-- In an untouched file a name has the last value set under it. -/
theorem got_of_inv (inv : Inv cipher w) (whole : w.whole = true) (name : String) :
    got cipher w name = (w.stored name).elim (.error (.notFound name)) .ok := by
  obtain ⟨entries, loaded, faithful⟩ := inv whole
  obtain ⟨none_, filed⟩ := faithful name
  cases found : entries.lookup name with
  | none => rw [got,get_of_load loaded,found,none_.mp found]; rfl
  | some entry =>
    obtain ⟨s, member, stored, twelve, carries⟩ := filed entry found
    rw [got_filed ⟨entries, loaded, found⟩,stored,Option.elim_some,open_ok_iff]
    refine ⟨fun nonce decoded => ?_, s, member, carries, rfl⟩
    rw [carries.1,Option.some.injEq] at decoded
    exact decoded ▸ twelve

end

/-- In every state of every run: what `get` gives is safe exactly when the entry filed under the name is bound to it,
and of a file nobody else wrote it gives the last value set under the name. -/
theorem got_exact (cipher : Cipher) (acts : List Act) (name : String) :
    (Safe cipher (run cipher acts) name ↔
      ∀ entry, Filed (run cipher acts) name entry → EntryBound cipher (run cipher acts) name entry) ∧
    ((run cipher acts).whole = true → got cipher (run cipher acts) name =
      ((run cipher acts).stored name).elim (.error (.notFound name)) .ok) :=
  ⟨safe_iff, fun whole => got_of_inv (inv_run acts) whole name⟩

def nonceOf (byte : UInt8) : Nonce := ⟨List.replicate 12 byte, rfl⟩

def entryOf (name plaintext : String) (byte : UInt8) : SecretEntry :=
  ⟨name, hexEncode (List.replicate 12 byte ++ plaintext.toByteArray.toList), hexEncode (List.replicate 12 byte), .inline,
    "2026-01-01", "2026-01-01"⟩

/-- Two secrets are set, and their entries change places. -/
def swap : List Act :=
  [.set "a" "x" .inline (nonceOf 1) "2026-01-01" .done, .set "b" "y" .inline (nonceOf 2) "2026-01-01" .done,
    .tamper (.holds [("a", entryOf "b" "y" 2), ("b", entryOf "a" "x" 1)])]

/-- One name gives the secret of the other. -/
theorem swapped : loadFile (run sampleCipher (swap.take 2)).file = .ok [("b", entryOf "b" "y" 2), ("a", entryOf "a" "x" 1)] ∧
    got sampleCipher (run sampleCipher swap) "a" = .ok "y" ∧ ¬ Safe sampleCipher (run sampleCipher swap) "a" := by
  have given : got sampleCipher (run sampleCipher swap) "a" = .ok "y" := by decide +kernel
  refine ⟨by decide +kernel, given, fun safe => ?_⟩
  obtain ⟨s, member, name, plaintext⟩ := safe.2 "y" given
  revert s
  decide

end Zaion.Secrets.Bound
