import Zaion.Lib.Hex
import Zaion.Lib.Utf8

/-! The encrypted store: a JSON file of entries, each the ciphertext of one secret under a
nonce of its own. A file is read back as what was written, or is torn where a write stopped
part-way, which no reader accepts. -/
namespace Zaion.Secrets

open Zaion.Lib

inductive Doc (α : Type) where
  | absent
  | holds (value : α)
  | torn

/-- How `fs::write` ends. -/
inductive Written where
  | done
  | refused
  | torn
  deriving DecidableEq

/-- The errors, without the texts of the libraries they come from. `panicked` is not one:
`Nonce::from_slice` panics on a nonce of another length. -/
inductive SecretsError where
  | io
  | crypto
  | notFound (what : String)
  | serialization
  | panicked
  deriving DecidableEq

/-- `fs::write` of a whole document. -/
def Doc.write {α : Type} (doc : Doc α) (value : α) : Written → Except SecretsError Unit × Doc α
  | .done => (.ok (), .holds value)
  | .refused => (.error .io, doc)
  | .torn => (.error .io, .torn)

inductive SecretSource where
  | env
  | file
  | inline
  deriving DecidableEq

structure SecretEntry where
  key : String
  ciphertextHex : String
  nonceHex : String
  source : SecretSource
  createdAt : String
  updatedAt : String
  deriving DecidableEq

/-- The map of entries; the order is not observable. -/
abbrev Entries := List (String × SecretEntry)

def Entries.insert (entries : Entries) (key : String) (entry : SecretEntry) : Entries :=
  (key, entry) :: entries.filter (fun e => e.1 ≠ key)

def Entries.remove (entries : Entries) (key : String) : Entries := entries.filter (fun e => e.1 ≠ key)

/-- AES-256-GCM under the master key: what it sealed it opens again. -/
structure Cipher where
  encrypt : List UInt8 → List UInt8 → Option (List UInt8)
  decrypt : List UInt8 → List UInt8 → Option (List UInt8)
  opens : ∀ nonce plain sealed_, encrypt nonce plain = some sealed_ → decrypt nonce sealed_ = some plain

/-- A stand-in that seals by putting the nonce before the text. -/
def sampleCipher : Cipher where
  encrypt nonce plain := some (nonce ++ plain)
  decrypt nonce sealed_ := if nonce <+: sealed_ then some (sealed_.drop nonce.length) else none
  opens := by
    rintro nonce plain sealed_ ⟨⟩
    simp

/-- Twelve random bytes. -/
abbrev Nonce := { bytes : List UInt8 // bytes.length = 12 }

namespace EncryptedStore

def loadFile : Doc Entries → Except SecretsError Entries
  | .absent => .ok []
  | .holds entries => .ok entries
  | .torn => .error .serialization

def set (cipher : Cipher) (key plaintext : String) (source : SecretSource) (nonce : Nonce) (now : String)
    (written : Written) (file : Doc Entries) : Except SecretsError Unit × Doc Entries :=
  match cipher.encrypt nonce.val plaintext.toByteArray.toList with
  | none => (.error .crypto, file)
  | some sealed_ => match loadFile file with
    | .error e => (.error e, file)
    | .ok entries =>
      file.write (entries.insert key {
        key := key
        ciphertextHex := hexEncode sealed_
        nonceHex := hexEncode nonce.val
        source := source
        createdAt := ((entries.lookup key).map SecretEntry.createdAt).getD now
        updatedAt := now }) written

/-- Opens one entry. -/
def open_ (cipher : Cipher) (entry : SecretEntry) : Except SecretsError String :=
  match hexDecode entry.nonceHex with
  | none => .error .crypto
  | some nonce =>
    if nonce.length ≠ 12 then .error .panicked
    else match hexDecode entry.ciphertextHex with
      | none => .error .crypto
      | some sealed_ => match cipher.decrypt nonce sealed_ with
        | none => .error .crypto
        | some plain => match decodeUtf8 plain with
          | none => .error .crypto
          | some text => .ok text

def get (cipher : Cipher) (key : String) (file : Doc Entries) : Except SecretsError String :=
  match loadFile file with
  | .error e => .error e
  | .ok entries => match entries.lookup key with
    | none => .error (.notFound key)
    | some entry => open_ cipher entry

def delete (key : String) (written : Written) (file : Doc Entries) : Except SecretsError Unit × Doc Entries :=
  match loadFile file with
  | .error e => (.error e, file)
  | .ok entries =>
    if (entries.lookup key).isNone then (.error (.notFound key), file)
    else file.write (entries.remove key) written

end EncryptedStore

theorem lookup_remove_same (entries : Entries) (key : String) : (entries.remove key).lookup key = none := by
  rw [List.lookup_eq_none_iff]
  intro e member
  have kept := (List.mem_filter.mp member).2
  exact bne_iff_ne.mpr (Ne.symm (of_decide_eq_true kept))

theorem lookup_remove_other (entries : Entries) {key other : String} (apart : other ≠ key) :
    (entries.remove key).lookup other = entries.lookup other := by
  induction entries with
  | nil => rfl
  | cons e rest ih =>
    obtain ⟨k, entry⟩ := e
    rw [Entries.remove] at ih ⊢
    by_cases same : k = key
    · subst same
      rw [List.filter_cons_of_neg (by simp),ih,List.lookup_cons,beq_eq_false_iff_ne.mpr apart]
    · rw [List.filter_cons_of_pos (by simpa using same),List.lookup_cons,List.lookup_cons,ih]

theorem lookup_insert_same (entries : Entries) (key : String) (entry : SecretEntry) :
    (entries.insert key entry).lookup key = some entry := by
  simp [Entries.insert]

theorem lookup_insert_other (entries : Entries) {key other : String} (entry : SecretEntry) (apart : other ≠ key) :
    (entries.insert key entry).lookup other = entries.lookup other := by
  rw [Entries.insert,List.lookup_cons,beq_eq_false_iff_ne.mpr apart]
  exact lookup_remove_other entries apart

namespace EncryptedStore

section

variable {cipher : Cipher} {key other plaintext now : String} {source : SecretSource} {nonce : Nonce}
  {written : Written} {file : Doc Entries} {entries : Entries}

theorem get_of_load (loaded : loadFile file = .ok entries) :
    get cipher key file = match entries.lookup key with
      | none => .error (.notFound key)
      | some entry => open_ cipher entry := by
  rw [get,loaded]

theorem get_holds (entries : Entries) : get cipher key (.holds entries) = match entries.lookup key with
    | none => .error (.notFound key)
    | some entry => open_ cipher entry := get_of_load rfl

/-- A successful `set` is read back. -/
theorem get_set_same (done : (set cipher key plaintext source nonce now written file).1 = .ok ()) :
    get cipher key (set cipher key plaintext source nonce now written file).2 = .ok plaintext := by
  unfold set at done ⊢
  cases sealed_ : cipher.encrypt nonce.val plaintext.toByteArray.toList with
  | none => simp [sealed_] at done
  | some bytes =>
    cases loaded : loadFile file with
    | error e => simp [sealed_,loaded] at done
    | ok entries =>
      cases written with
      | done =>
        have decoded : decodeUtf8 plaintext.toByteArray.toList = some plaintext := decodeUtf8_eq_some.mpr rfl
        simp [Doc.write,get_holds,lookup_insert_same,open_,nonce.property,cipher.opens _ _ _ sealed_,decoded]
      | refused => simp [sealed_,loaded,Doc.write] at done
      | torn => simp [sealed_,loaded,Doc.write] at done

/-- .. and leaves the other secrets. -/
theorem get_set_other (apart : other ≠ key) (whole : written ≠ .torn ∨ cipher.encrypt nonce.val plaintext.toByteArray.toList = none) :
    get cipher other (set cipher key plaintext source nonce now written file).2 = get cipher other file := by
  unfold set
  cases sealed_ : cipher.encrypt nonce.val plaintext.toByteArray.toList with
  | none => rfl
  | some bytes =>
    cases loaded : loadFile file with
    | error e => rfl
    | ok entries =>
      cases written with
      | done => simp [Doc.write,get_holds,get_of_load loaded,lookup_insert_other entries _ apart]
      | refused => rfl
      | torn => simp [sealed_] at whole

theorem set_failed (failed : (set cipher key plaintext source nonce now written file).1 ≠ .ok ())
    (whole : written ≠ .torn ∨ cipher.encrypt nonce.val plaintext.toByteArray.toList = none) :
    (set cipher key plaintext source nonce now written file).2 = file := by
  unfold set at failed ⊢
  cases sealed_ : cipher.encrypt nonce.val plaintext.toByteArray.toList with
  | none => rfl
  | some bytes =>
    cases loaded : loadFile file with
    | error e => rfl
    | ok entries =>
      cases written with
      | done => simp [sealed_,loaded,Doc.write] at failed
      | refused => rfl
      | torn => simp [sealed_] at whole

theorem set_done (loaded : loadFile file = .ok entries) (sealed_ : cipher.encrypt nonce.val plaintext.toByteArray.toList ≠ none) :
    (set cipher key plaintext source nonce now .done file).1 = .ok () := by
  unfold set
  cases sealed_' : cipher.encrypt nonce.val plaintext.toByteArray.toList with
  | none => exact absurd sealed_' sealed_
  | some bytes => simp [loaded,Doc.write]

/-- After the `delete` of a secret that is there, its name is not found and the others are as before. -/
theorem get_delete (loaded : loadFile file = .ok entries) (there : entries.lookup key ≠ none) :
    (delete key .done file).1 = .ok () ∧ get cipher key (delete key .done file).2 = .error (.notFound key) ∧
      ∀ other, other ≠ key → get cipher other (delete key .done file).2 = get cipher other file := by
  have some_ : (entries.lookup key).isNone = false := by simpa using there
  refine ⟨?_, ?_, ?_⟩
  · simp [delete,loaded,some_,Doc.write]
  · simp [delete,loaded,some_,Doc.write,get_holds,lookup_remove_same]
  · intro other apart
    simp [delete,loaded,some_,Doc.write,get_holds,get_of_load loaded,lookup_remove_other entries apart]

end

end EncryptedStore

end Zaion.Secrets
