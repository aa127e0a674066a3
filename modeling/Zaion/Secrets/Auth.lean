import Mathlib.Data.List.Nodup
import Mathlib.Logic.Function.Basic
import Zaion.Lib.Steps
import Zaion.Secrets.Store

/-! The auth profiles: an index of metadata in one file, the keys of the profiles in the
encrypted store. Each call may find any of its writes failing. -/
namespace Zaion.Secrets

open Zaion.Lib

structure AuthProfile where
  name : String
  provider : String
  model : Option String
  baseUrl : Option String
  isDefault : Bool
  createdAt : String
  updatedAt : String
  deriving DecidableEq

structure Disk where
  index : Doc (List AuthProfile)
  keys : Doc Entries

namespace AuthManager

def loadIndex : Doc (List AuthProfile) → Except SecretsError (List AuthProfile)
  | .absent => .ok []
  | .holds profiles => .ok profiles
  | .torn => .error .serialization

def keyName (name : String) : String := "auth::" ++ name

def getKey (cipher : Cipher) (d : Disk) (name : String) : Except SecretsError String :=
  EncryptedStore.get cipher (keyName name) d.keys

/-- What a call to `add` meets: the clock (read again by the store), the nonce, the writes. -/
structure AddEnv where
  now : String
  keyNow : String
  nonce : Nonce
  indexWrite : Written
  keyWrite : Written

def addProfile (profiles : List AuthProfile) (profile : AuthProfile) : List AuthProfile :=
  let profiles := if profile.isDefault then profiles.map (fun p => { p with isDefault := false }) else profiles
  profiles.filter (fun p => p.name ≠ profile.name) ++ [profile]

def add (cipher : Cipher) (d : Disk) (name provider apiKey : String) (model baseUrl : Option String) (makeDefault : Bool)
    (env : AddEnv) : Except SecretsError AuthProfile × Disk :=
  match loadIndex d.index with
  | .error e => (.error e, d)
  | .ok profiles =>
    let profile : AuthProfile := ⟨name, provider, model, baseUrl, makeDefault, env.now, env.now⟩
    match d.index.write (addProfile profiles profile) env.indexWrite with
    | (.error e, index) => (.error e, { d with index := index })
    | (.ok (), index) =>
      match EncryptedStore.set cipher (keyName name) apiKey .inline env.nonce env.keyNow env.keyWrite d.keys with
      | (.error e, keys) => (.error e, ⟨index, keys⟩)
      | (.ok (), keys) => (.ok profile, ⟨index, keys⟩)

def switch (d : Disk) (name : String) (written : Written) : Except SecretsError Unit × Disk :=
  match loadIndex d.index with
  | .error e => (.error e, d)
  | .ok profiles =>
    if profiles.any (fun p => p.name = name) then
      let (result, index) := d.index.write (profiles.map (fun p => { p with isDefault := decide (p.name = name) })) written
      (result, { d with index := index })
    else (.error (.notFound name), d)

def remove (d : Disk) (name : String) (indexWrite keyWrite : Written) : Except SecretsError Unit × Disk :=
  match loadIndex d.index with
  | .error e => (.error e, d)
  | .ok profiles =>
    let kept := profiles.filter (fun p => p.name ≠ name)
    if kept.length = profiles.length then (.error (.notFound name), d)
    else match d.index.write kept indexWrite with
      | (.error e, index) => (.error e, { d with index := index })
      -- the result of the delete is dropped
      | (.ok (), index) => (.ok (), ⟨index, (EncryptedStore.delete (keyName name) keyWrite d.keys).2⟩)

end AuthManager

open AuthManager

inductive Call where
  | add (name provider apiKey : String) (model baseUrl : Option String) (makeDefault : Bool) (env : AddEnv)
  | switch (name : String) (written : Written)
  | remove (name : String) (indexWrite keyWrite : Written)

/-- The files, and for each name the key of its last successful `add`. -/
structure World where
  disk : Disk
  added : String → Option String

def perform (cipher : Cipher) (w : World) : Call → Except SecretsError Unit × World
  | .add name provider apiKey model baseUrl makeDefault env =>
    match add cipher w.disk name provider apiKey model baseUrl makeDefault env with
    | (.ok _, d) => (.ok (), ⟨d, Function.update w.added name (some apiKey)⟩)
    | (.error e, d) => (.error e, { w with disk := d })
  | .switch name written => ((switch w.disk name written).1, { w with disk := (switch w.disk name written).2 })
  | .remove name indexWrite keyWrite =>
    ((remove w.disk name indexWrite keyWrite).1, { w with disk := (remove w.disk name indexWrite keyWrite).2 })

def step (cipher : Cipher) (w : World) (call : Call) : Option World := some (perform cipher w call).2

def start : World := ⟨⟨.absent, .absent⟩, fun _ => none⟩

/-- One of the writes that the call comes to fails. -/
def writeFails (cipher : Cipher) (d : Disk) : Call → Bool
  | .add name _ apiKey _ _ _ env => match loadIndex d.index with
    | .error _ => false
    | .ok _ => env.indexWrite ≠ .done ||
      (EncryptedStore.set cipher (keyName name) apiKey .inline env.nonce env.keyNow env.keyWrite d.keys).1 = .error .io
  | .switch name written => match loadIndex d.index with
    | .error _ => false
    | .ok profiles => profiles.any (fun p => p.name = name) && written ≠ .done
  | .remove name indexWrite keyWrite => match loadIndex d.index with
    | .error _ => false
    | .ok profiles => profiles.any (fun p => p.name = name) && (indexWrite ≠ .done ||
      (EncryptedStore.delete (keyName name) keyWrite d.keys).1 = .error .io)

/-- The profile the call makes default. -/
def Call.makesDefault : Call → Option String
  | .add name _ _ _ _ makeDefault _ => if makeDefault then some name else none
  | .switch name _ => some name
  | .remove .. => none

def Listed (d : Disk) (name : String) : Prop := ∃ profiles, loadIndex d.index = .ok profiles ∧ ∃ p ∈ profiles, p.name = name

/-- Profiles and keys belong together. -/
structure Paired (cipher : Cipher) (w : World) : Prop where
  default_ : ∀ profiles, loadIndex w.disk.index = .ok profiles → (profiles.filter AuthProfile.isDefault).length ≤ 1
  listed : ∀ name, Listed w.disk name ↔ ∃ key, getKey cipher w.disk name = .ok key
  last : ∀ name key, getKey cipher w.disk name = .ok key → w.added name = some key

/-- What a call leaves as it was, and what its result says. -/
structure Kept (cipher : Cipher) (w : World) (call : Call) : Prop where
  failing : writeFails cipher w.disk call = true → ∃ e, (perform cipher w call).1 = .error e
  createdAt : ∀ old new p q, loadIndex w.disk.index = .ok old → loadIndex (perform cipher w call).2.disk.index = .ok new →
    p ∈ old → q ∈ new → q.name = p.name → q.createdAt = p.createdAt
  flag : ∀ old new p q, loadIndex w.disk.index = .ok old → loadIndex (perform cipher w call).2.disk.index = .ok new →
    p ∈ old → q ∈ new → q.name = p.name → (call.makesDefault = none → q.isDefault = p.isDefault) ∧
      (call.makesDefault = some p.name → p.isDefault = true → q.isDefault = true)
  removed : ∀ name indexWrite keyWrite, call = .remove name indexWrite keyWrite → (perform cipher w call).1 = .ok () →
    getKey cipher (perform cipher w call).2.disk name = .error (.notFound (keyName name))

/-- A write of the key file fails only in an `add` of a listed profile, and without tearing the
file; the index is torn only while no key is stored; and an `add` names no listed profile that
was created at another time, or is default and would not be. -/
def Careful (cipher : Cipher) (w : World) : Call → Prop
  | .add name _ apiKey _ _ makeDefault env => ∀ profiles, loadIndex w.disk.index = .ok profiles →
    (env.indexWrite = .torn → EncryptedStore.loadFile w.disk.keys = .ok []) ∧
    (env.indexWrite = .done →
      (∀ p ∈ profiles, p.name = name → p.createdAt = env.now ∧ (p.isDefault = true → makeDefault = true)) ∧
      (if cipher.encrypt env.nonce.val apiKey.toByteArray.toList = none ∨ env.keyWrite = .refused
        then ∃ p ∈ profiles, p.name = name else env.keyWrite = .done))
  | .switch name written => Listed w.disk name → written ≠ .torn
  | .remove name indexWrite keyWrite => Listed w.disk name →
    indexWrite ≠ .torn ∧ (indexWrite = .done → keyWrite = .done)

section

variable {profiles : List AuthProfile} {profile : AuthProfile} {name : String}

theorem addProfile_names (profiles : List AuthProfile) (profile : AuthProfile) :
    (addProfile profiles profile).map AuthProfile.name =
      (profiles.map AuthProfile.name).filter (fun n => n ≠ profile.name) ++ [profile.name] := by
  unfold addProfile
  cases profile.isDefault <;> simp [List.filter_map,Function.comp_def]

theorem addProfile_listed : (∃ p ∈ addProfile profiles profile, p.name = name) ↔
    name = profile.name ∨ ∃ p ∈ profiles, p.name = name := by
  have names : name ∈ (addProfile profiles profile).map AuthProfile.name ↔
      name = profile.name ∨ name ∈ profiles.map AuthProfile.name := by
    rw [addProfile_names,List.mem_append,List.mem_filter,List.mem_singleton,decide_eq_true_eq]
    tauto
  simpa only [List.mem_map] using names

theorem addProfile_nodup (nodup : (profiles.map AuthProfile.name).Nodup) :
    ((addProfile profiles profile).map AuthProfile.name).Nodup := by
  rw [addProfile_names]
  refine List.nodup_append.mpr ⟨nodup.filter _, List.nodup_singleton _, ?_⟩
  intro n member m single same
  rw [List.mem_singleton.mp single] at same
  exact of_decide_eq_true (List.mem_filter.mp member).2 same

theorem addProfile_default (single : (profiles.filter AuthProfile.isDefault).length ≤ 1) :
    ((addProfile profiles profile).filter AuthProfile.isDefault).length ≤ 1 := by
  unfold addProfile
  cases makes : profile.isDefault with
  | true =>
    have cleared : ((profiles.map (fun p => { p with isDefault := false })).filter (fun p => p.name ≠ profile.name)).filter
        AuthProfile.isDefault = [] := by
      simp [List.filter_eq_nil_iff]
    simp only [if_true,List.filter_append,cleared]
    simp [makes]
  | false =>
    have fewer : ((profiles.filter (fun p => p.name ≠ profile.name)).filter AuthProfile.isDefault).length ≤
        (profiles.filter AuthProfile.isDefault).length :=
      (List.filter_sublist.filter _).length_le
    simp only [List.filter_append,List.length_append]
    simp [makes] at fewer ⊢
    omega

/-- An updated profile is the new one; the others keep all but, at most, the flag. -/
theorem addProfile_mem {q : AuthProfile} (member : q ∈ addProfile profiles profile) :
    q = profile ∨ ∃ p ∈ profiles, p.name ≠ profile.name ∧ q.name = p.name ∧ q.createdAt = p.createdAt ∧
      (profile.isDefault = false → q = p) := by
  unfold addProfile at member
  rcases List.mem_append.mp member with old | new
  · obtain ⟨inside, other⟩ := List.mem_filter.mp old
    have other := of_decide_eq_true other
    right
    cases makes : profile.isDefault with
    | true =>
      rw [if_pos makes] at inside
      obtain ⟨p, here, rfl⟩ := List.mem_map.mp inside
      exact ⟨p, here, other, rfl, rfl, nofun⟩
    | false =>
      rw [if_neg (by simp [makes])] at inside
      exact ⟨q, inside, other, rfl, rfl, fun _ => rfl⟩
  · exact .inl (List.mem_singleton.mp new)

theorem switched_default (nodup : (profiles.map AuthProfile.name).Nodup) :
    ((profiles.map (fun p => { p with isDefault := decide (p.name = name) })).filter AuthProfile.isDefault).length ≤ 1 := by
  have once := List.nodup_iff_count_le_one.mp nodup name
  rw [List.count,List.countP_map,List.countP_eq_length_filter] at once
  rw [List.filter_map,List.length_map]
  exact once

/-- Of two profiles of one name in the index there is one. -/
theorem same_profile (nodup : (profiles.map AuthProfile.name).Nodup) {p q : AuthProfile} (first : p ∈ profiles)
    (second : q ∈ profiles) (same : q.name = p.name) : q = p :=
  List.inj_on_of_nodup_map nodup second first same

end

theorem keyName_injective : Function.Injective keyName := by
  intro a b same
  have chars := congrArg String.toList same
  simp only [keyName,String.toList_append] at chars
  exact String.toList_injective (List.append_cancel_left chars)

/-- The index can be read, and every key belongs to a profile in it. -/
structure Sound (cipher : Cipher) (keys : Doc Entries) (added : String → Option String) (profiles : List AuthProfile) :
    Prop where
  names : (profiles.map AuthProfile.name).Nodup
  default_ : (profiles.filter AuthProfile.isDefault).length ≤ 1
  keyed : ∀ name, (∃ p ∈ profiles, p.name = name) →
    ∃ key, EncryptedStore.get cipher (keyName name) keys = .ok key ∧ added name = some key
  missing : ∀ name, (¬ ∃ p ∈ profiles, p.name = name) →
    EncryptedStore.get cipher (keyName name) keys = .error (.notFound (keyName name))

def Inv (cipher : Cipher) (w : World) : Prop :=
  (∃ profiles, loadIndex w.disk.index = .ok profiles ∧ Sound cipher w.disk.keys w.added profiles) ∨
  ((∃ e, loadIndex w.disk.index = .error e) ∧ ∀ name, getKey cipher w.disk name = .error (.notFound (keyName name)))

section

variable {cipher : Cipher} {w : World} {keys : Doc Entries} {added : String → Option String} {profiles : List AuthProfile}
  {profile : AuthProfile} {name key : String} {call : Call} {result : Except SecretsError Unit} {w' : World}

/-- The key file can be read. -/
theorem Sound.loaded (sound : Sound cipher keys added profiles) : ∃ entries, EncryptedStore.loadFile keys = .ok entries := by
  cases keys with
  | absent => exact ⟨[], rfl⟩
  | holds entries => exact ⟨entries, rfl⟩
  | torn =>
    exfalso
    by_cases listed : ∃ p ∈ profiles, p.name = ""
    · obtain ⟨key, read, _⟩ := sound.keyed "" listed
      cases read
    · cases sound.missing "" listed

theorem Sound.entry (sound : Sound cipher keys added profiles) (listed : ∃ p ∈ profiles, p.name = name)
    {entries : Entries} (loaded : EncryptedStore.loadFile keys = .ok entries) : entries.lookup (keyName name) ≠ none := by
  intro none_
  obtain ⟨key, read, _⟩ := sound.keyed name listed
  rw [EncryptedStore.get_of_load loaded,none_] at read
  cases read

theorem Sound.paired (sound : Sound cipher w.disk.keys w.added profiles) (loaded : loadIndex w.disk.index = .ok profiles) :
    Paired cipher w := by
  have known : ∀ name, Listed w.disk name ↔ ∃ p ∈ profiles, p.name = name := by
    intro name
    constructor
    · rintro ⟨read, loaded', listed⟩
      rw [loaded] at loaded'
      cases loaded'
      exact listed
    · exact fun listed => ⟨profiles, loaded, listed⟩
  constructor
  · intro read loaded'
    rw [loaded] at loaded'
    cases loaded'
    exact sound.default_
  · intro name
    rw [known]
    constructor
    · intro listed
      obtain ⟨key, read, _⟩ := sound.keyed name listed
      exact ⟨key, read⟩
    · rintro ⟨key, read⟩
      by_contra unlisted
      rw [getKey,sound.missing name unlisted] at read
      cases read
  · intro name key read
    by_cases listed : ∃ p ∈ profiles, p.name = name
    · obtain ⟨key', read', same⟩ := sound.keyed name listed
      rw [getKey,read'] at read
      cases read
      exact same
    · rw [getKey,sound.missing name listed] at read
      cases read

theorem Inv.paired (inv : Inv cipher w) : Paired cipher w := by
  rcases inv with ⟨profiles, loaded, sound⟩ | ⟨⟨e, lost⟩, missing⟩
  · exact sound.paired loaded
  · constructor
    · intro profiles loaded
      rw [lost] at loaded
      cases loaded
    · intro name
      constructor
      · rintro ⟨profiles, loaded, _⟩
        rw [lost] at loaded
        cases loaded
      · rintro ⟨key, read⟩
        rw [missing] at read
        cases read
    · intro name key read
      rw [missing] at read
      cases read

/-- The profile and its key are both in. -/
theorem Sound.add (sound : Sound cipher keys added profiles) {keys' : Doc Entries}
    (read : EncryptedStore.get cipher (keyName profile.name) keys' = .ok key)
    (others : ∀ other, other ≠ keyName profile.name → EncryptedStore.get cipher other keys' = EncryptedStore.get cipher other keys) :
    Sound cipher keys' (Function.update added profile.name (some key)) (addProfile profiles profile) := by
  refine ⟨addProfile_nodup sound.names, addProfile_default sound.default_, ?_, ?_⟩
  · intro name listed
    by_cases same : name = profile.name
    · subst same
      exact ⟨key, read, by simp⟩
    · obtain ⟨key', read', last⟩ := sound.keyed name ((addProfile_listed.mp listed).resolve_left same)
      refine ⟨key', ?_, by simpa [same] using last⟩
      rw [others _ (fun eq => same (keyName_injective eq)),read']
  · intro name unlisted
    rw [addProfile_listed,not_or] at unlisted
    rw [others _ (fun eq => unlisted.1 (keyName_injective eq)),sound.missing name unlisted.2]

/-- A listed profile is replaced and its key stays. -/
theorem Sound.replace (sound : Sound cipher keys added profiles) (listed : ∃ p ∈ profiles, p.name = profile.name) :
    Sound cipher keys added (addProfile profiles profile) := by
  refine ⟨addProfile_nodup sound.names, addProfile_default sound.default_, ?_, ?_⟩
  · intro name there
    rcases addProfile_listed.mp there with rfl | old
    · exact sound.keyed profile.name listed
    · exact sound.keyed name old
  · intro name unlisted
    exact sound.missing name (fun old => unlisted (addProfile_listed.mpr (.inr old)))

theorem Sound.switch (sound : Sound cipher keys added profiles) (name : String) :
    Sound cipher keys added (profiles.map (fun p => { p with isDefault := decide (p.name = name) })) := by
  have same (n : String) : (∃ p ∈ profiles.map (fun p => { p with isDefault := decide (p.name = name) }), p.name = n) ↔
      ∃ p ∈ profiles, p.name = n := by
    simp
  refine ⟨?_, switched_default sound.names, ?_, ?_⟩
  · rw [List.map_map]
    exact sound.names
  · intro n listed
    exact sound.keyed n ((same n).mp listed)
  · intro n unlisted
    exact sound.missing n (fun listed => unlisted ((same n).mpr listed))

theorem Sound.remove (sound : Sound cipher keys added profiles) {keys' : Doc Entries}
    (gone : EncryptedStore.get cipher (keyName name) keys' = .error (.notFound (keyName name)))
    (others : ∀ other, other ≠ keyName name → EncryptedStore.get cipher other keys' = EncryptedStore.get cipher other keys) :
    Sound cipher keys' added (profiles.filter (fun p => p.name ≠ name)) := by
  have kept (n : String) : (∃ p ∈ profiles.filter (fun p => p.name ≠ name), p.name = n) ↔
      n ≠ name ∧ ∃ p ∈ profiles, p.name = n := by
    simp only [List.mem_filter,decide_eq_true_eq]
    constructor
    · rintro ⟨p, ⟨inside, other⟩, rfl⟩
      exact ⟨other, p, inside, rfl⟩
    · rintro ⟨other, p, inside, rfl⟩
      exact ⟨p, ⟨inside, other⟩, rfl⟩
  refine ⟨sound.names.sublist (List.filter_sublist.map _), ?_, ?_, ?_⟩
  · exact le_trans (List.filter_sublist.filter _).length_le sound.default_
  · intro n listed
    obtain ⟨other, listed⟩ := (kept n).mp listed
    rw [others _ (fun eq => other (keyName_injective eq))]
    exact sound.keyed n listed
  · intro n unlisted
    by_cases same : n = name
    · subst same
      exact gone
    · rw [others _ (fun eq => same (keyName_injective eq))]
      exact sound.missing n (fun listed => unlisted ((kept n).mpr ⟨same, listed⟩))

theorem perform_lost {e : SecretsError} (lost : loadIndex w.disk.index = .error e) :
    perform cipher w call = (.error e, w) ∧ writeFails cipher w.disk call = false := by
  cases call <;> simp [perform,AuthManager.add,AuthManager.switch,AuthManager.remove,writeFails,lost]

/-- What a careful `add` does: nothing, lose an index without keys, replace a listed profile but
not its key, or all of it. -/
theorem perform_add {provider apiKey : String} {model baseUrl : Option String} {makeDefault : Bool} {env : AddEnv}
    (loaded : loadIndex w.disk.index = .ok profiles) (sound : Sound cipher w.disk.keys w.added profiles)
    (careful : Careful cipher w (.add name provider apiKey model baseUrl makeDefault env))
    (new : profile = ⟨name, provider, model, baseUrl, makeDefault, env.now, env.now⟩)
    (did : perform cipher w (.add name provider apiKey model baseUrl makeDefault env) = (result, w')) :
    ((∃ e, result = .error e) ∧ w' = w) ∨
    ((∃ e, result = .error e) ∧ w' = ⟨⟨.torn, w.disk.keys⟩, w.added⟩ ∧ EncryptedStore.loadFile w.disk.keys = .ok []) ∨
    (w'.disk.index = .holds (addProfile profiles profile) ∧
      (∀ p ∈ profiles, p.name = name → p.createdAt = env.now ∧ (p.isDefault = true → makeDefault = true)) ∧
      Sound cipher w'.disk.keys w'.added (addProfile profiles profile) ∧
      (writeFails cipher w.disk (.add name provider apiKey model baseUrl makeDefault env) = true → ∃ e, result = .error e)) := by
  obtain ⟨ifTorn, ifDone⟩ := careful profiles loaded
  cases written : env.indexWrite with
  | refused =>
    simp only [perform,AuthManager.add,loaded,written,Doc.write] at did
    cases did
    exact .inl ⟨⟨_, rfl⟩, rfl⟩
  | torn =>
    simp only [perform,AuthManager.add,loaded,written,Doc.write] at did
    cases did
    exact .inr (.inl ⟨⟨_, rfl⟩, rfl, ifTorn written⟩)
  | done =>
    obtain ⟨same, keyWrite⟩ := ifDone written
    obtain ⟨entries, readable⟩ := sound.loaded
    have whole : env.keyWrite ≠ .torn ∨ cipher.encrypt env.nonce.val apiKey.toByteArray.toList = none := by
      split at keyWrite
      · rename_i cond
        rcases cond with none_ | refused
        · exact .inr none_
        · exact .inl (by rw [refused]; decide)
      · exact .inl (by rw [keyWrite]; decide)
    cases stored : EncryptedStore.set cipher (keyName name) apiKey .inline env.nonce env.keyNow env.keyWrite w.disk.keys with
    | mk r keys' =>
    simp only [perform,AuthManager.add,loaded,written,Doc.write,stored] at did
    cases r with
    | ok u =>
      cases did
      refine .inr (.inr ⟨by rw [new], same, ?_, by simp [writeFails,loaded,written,stored]⟩)
      have read := EncryptedStore.get_set_same (congrArg Prod.fst stored)
      have others (other : String) (apart : other ≠ keyName name) :
          EncryptedStore.get cipher other (EncryptedStore.set cipher (keyName name) apiKey .inline env.nonce env.keyNow
            env.keyWrite w.disk.keys).2 = EncryptedStore.get cipher other w.disk.keys :=
        EncryptedStore.get_set_other apart whole
      rw [stored] at read
      simp only [stored] at others
      obtain rfl : name = profile.name := by rw [new]
      exact sound.add read others
    | error e =>
      cases did
      have failed : (EncryptedStore.set cipher (keyName name) apiKey .inline env.nonce env.keyNow env.keyWrite w.disk.keys).1 ≠ .ok () := by
        rw [stored]
        intro same
        cases same
      have kept := EncryptedStore.set_failed failed whole
      rw [stored] at kept
      subst kept
      have listed : ∃ p ∈ profiles, p.name = name := by
        split at keyWrite
        · exact keyWrite
        · rename_i cond
          rw [keyWrite] at failed
          exact absurd (EncryptedStore.set_done readable (fun none_ => cond (.inl none_))) failed
      subst new
      exact .inr (.inr ⟨rfl, same, sound.replace listed, fun _ => ⟨e, rfl⟩⟩)

theorem perform_switch {written : Written} (loaded : loadIndex w.disk.index = .ok profiles)
    (careful : Careful cipher w (.switch name written)) (did : perform cipher w (.switch name written) = (result, w')) :
    ((∃ e, result = .error e) ∧ w' = w) ∨
    (w' = ⟨⟨.holds (profiles.map (fun p => { p with isDefault := decide (p.name = name) })), w.disk.keys⟩, w.added⟩ ∧
      writeFails cipher w.disk (.switch name written) = false) := by
  cases listed : profiles.any (fun p => p.name = name) with
  | false =>
    simp only [perform,AuthManager.switch,loaded,listed] at did
    cases did
    exact .inl ⟨⟨_, rfl⟩, rfl⟩
  | true =>
    simp only [perform,AuthManager.switch,loaded,listed,if_true] at did
    cases written with
    | done =>
      cases did
      exact .inr ⟨rfl, by simp [writeFails,loaded]⟩
    | refused =>
      cases did
      exact .inl ⟨⟨_, rfl⟩, rfl⟩
    | torn => exact absurd rfl (careful ⟨profiles, loaded, by simpa using listed⟩)

theorem perform_remove {indexWrite keyWrite : Written} (loaded : loadIndex w.disk.index = .ok profiles)
    (sound : Sound cipher w.disk.keys w.added profiles) (careful : Careful cipher w (.remove name indexWrite keyWrite))
    (did : perform cipher w (.remove name indexWrite keyWrite) = (result, w')) :
    ((∃ e, result = .error e) ∧ w' = w) ∨
    (w'.disk.index = .holds (profiles.filter (fun p => p.name ≠ name)) ∧
      getKey cipher w'.disk name = .error (.notFound (keyName name)) ∧
      Sound cipher w'.disk.keys w'.added (profiles.filter (fun p => p.name ≠ name)) ∧
      writeFails cipher w.disk (.remove name indexWrite keyWrite) = false) := by
  by_cases kept : (profiles.filter (fun p => p.name ≠ name)).length = profiles.length
  · simp only [perform,AuthManager.remove,loaded,if_pos kept] at did
    cases did
    exact .inl ⟨⟨_, rfl⟩, rfl⟩
  · have listed : ∃ p ∈ profiles, p.name = name := by
      by_contra none_
      refine kept (congrArg List.length (List.filter_eq_self.mpr ?_))
      exact fun p inside => decide_eq_true (fun same => none_ ⟨p, inside, same⟩)
    obtain ⟨whole, deleted⟩ := careful ⟨profiles, loaded, listed⟩
    simp only [perform,AuthManager.remove,loaded,if_neg kept] at did
    cases indexWrite with
    | torn => exact absurd rfl whole
    | refused =>
      cases did
      exact .inl ⟨⟨_, rfl⟩, rfl⟩
    | done =>
      obtain rfl := deleted rfl
      obtain ⟨entries, readable⟩ := sound.loaded
      obtain ⟨ok_, gone, others⟩ := @EncryptedStore.get_delete cipher _ _ _ readable (sound.entry listed readable)
      cases did
      refine .inr ⟨rfl, gone, sound.remove gone others, ?_⟩
      simp [writeFails,loaded,ok_]

/-- What is kept of the profiles, by comparing the indexes before and after. -/
theorem Kept.of_index (loaded : loadIndex w.disk.index = .ok profiles) (did : perform cipher w call = (result, w'))
    (failing : writeFails cipher w.disk call = true → ∃ e, result = .error e)
    (removed : ∀ name indexWrite keyWrite, call = .remove name indexWrite keyWrite → result = .ok () →
      getKey cipher w'.disk name = .error (.notFound (keyName name)))
    (same : ∀ new, loadIndex w'.disk.index = .ok new → ∀ p ∈ profiles, ∀ q ∈ new, q.name = p.name →
      q.createdAt = p.createdAt ∧ (call.makesDefault = none → q.isDefault = p.isDefault) ∧
        (call.makesDefault = some p.name → p.isDefault = true → q.isDefault = true)) : Kept cipher w call := by
  have old : ∀ read, loadIndex w.disk.index = .ok read → read = profiles := by
    intro read loaded'
    rw [loaded] at loaded'
    cases loaded'
    rfl
  constructor
  · rw [did]
    exact failing
  · rw [did]
    intro read new p q loaded' loadedNew inside inside' named
    obtain rfl := old read loaded'
    exact (same new loadedNew p inside q inside' named).1
  · rw [did]
    intro read new p q loaded' loadedNew inside inside' named
    obtain rfl := old read loaded'
    exact (same new loadedNew p inside q inside' named).2
  · rw [did]
    exact removed

/-- A call that fails and changes nothing. -/
theorem Kept.of_unchanged (loaded : loadIndex w.disk.index = .ok profiles)
    (sound : Sound cipher w.disk.keys w.added profiles) {e : SecretsError} (did : perform cipher w call = (.error e, w)) :
    Kept cipher w call := by
  refine Kept.of_index loaded did (fun _ => ⟨e, rfl⟩) nofun ?_
  intro new loadedNew p inside q inside' named
  rw [loaded] at loadedNew
  cases loadedNew
  obtain rfl := same_profile sound.names inside inside' named
  exact ⟨rfl, fun _ => rfl, fun _ made => made⟩

theorem Sound.perform (loaded : loadIndex w.disk.index = .ok profiles) (sound : Sound cipher w.disk.keys w.added profiles)
    (careful : Careful cipher w call) (did : perform cipher w call = (result, w')) : Inv cipher w' ∧ Kept cipher w call := by
  have unchanged (e : SecretsError) (did : Secrets.perform cipher w call = (.error e, w)) : Inv cipher w ∧ Kept cipher w call :=
    ⟨.inl ⟨profiles, loaded, sound⟩, Kept.of_unchanged loaded sound did⟩
  cases call with
  | add name provider apiKey model baseUrl makeDefault env =>
    rcases perform_add loaded sound careful rfl did with ⟨⟨e, rfl⟩, rfl⟩ | ⟨⟨e, rfl⟩, rfl, empty⟩ | ⟨index, same, sound', failing⟩
    · exact unchanged e did
    · refine ⟨.inr ⟨⟨_, rfl⟩, fun n => ?_⟩, Kept.of_index loaded did (fun _ => ⟨e, rfl⟩) nofun nofun⟩
      exact EncryptedStore.get_of_load empty
    · refine ⟨.inl ⟨_, by rw [index]; rfl, sound'⟩, Kept.of_index loaded did failing nofun ?_⟩
      intro new loadedNew p inside q inside' named
      rw [index] at loadedNew
      cases loadedNew
      rcases addProfile_mem inside' with rfl | ⟨p', there, other, named', created, flag⟩
      · -- the updated profile itself
        obtain ⟨created, kept⟩ := same p inside named.symm
        refine ⟨created.symm, fun made => ?_, fun made _ => ?_⟩
        · cases makeDefault with
          | true => cases made
          | false => exact (Bool.eq_false_iff.mpr (fun flag => Bool.false_ne_true (kept flag))).symm
        · cases makeDefault with
          | true => rfl
          | false => cases made
      · obtain rfl := same_profile sound.names inside there (named'.symm.trans named)
        refine ⟨created, fun made => ?_, fun made _ => ?_⟩
        · cases makeDefault with
          | true => cases made
          | false => rw [flag rfl]
        · cases makeDefault with
          | true => exact absurd (Option.some.inj made).symm other
          | false => cases made
  | switch name written =>
    rcases perform_switch loaded careful did with ⟨⟨e, rfl⟩, rfl⟩ | ⟨rfl, failing⟩
    · exact unchanged e did
    · refine ⟨.inl ⟨_, rfl, sound.switch name⟩, Kept.of_index loaded did (by rw [failing]; nofun) nofun ?_⟩
      intro new loadedNew p inside q inside' named
      cases loadedNew
      obtain ⟨p', there, rfl⟩ := List.mem_map.mp inside'
      obtain rfl := same_profile sound.names inside there named
      exact ⟨rfl, nofun, fun made _ => decide_eq_true (Option.some.inj made).symm⟩
  | remove name indexWrite keyWrite =>
    rcases perform_remove loaded sound careful did with ⟨⟨e, rfl⟩, rfl⟩ | ⟨index, gone, sound', failing⟩
    · exact unchanged e did
    · refine ⟨.inl ⟨_, by rw [index]; rfl, sound'⟩, Kept.of_index loaded did (by rw [failing]; nofun) ?_ ?_⟩
      · rintro n iw kw eq _
        cases eq
        exact gone
      · intro new loadedNew p inside q inside' named
        rw [index] at loadedNew
        cases loadedNew
        obtain rfl := same_profile sound.names inside (List.mem_filter.mp inside').1 named
        exact ⟨rfl, fun _ => rfl, nofun⟩

/-- One careful call keeps profiles and keys together, and says so. -/
theorem Inv.perform (inv : Inv cipher w) (careful : Careful cipher w call) :
    Inv cipher (perform cipher w call).2 ∧ Kept cipher w call := by
  rcases inv with ⟨profiles, loaded, sound⟩ | ⟨⟨e, lost⟩, missing⟩
  · exact sound.perform loaded careful rfl
  · obtain ⟨did, quiet⟩ := @perform_lost cipher _ call _ lost
    rw [did]
    refine ⟨.inr ⟨⟨e, lost⟩, missing⟩, ?_, ?_, ?_, ?_⟩
    · rw [quiet]
      nofun
    · intro old new p q loaded
      rw [lost] at loaded
      cases loaded
    · intro old new p q loaded
      rw [lost] at loaded
      cases loaded
    · rw [did]
      nofun

theorem start_inv : Inv cipher start :=
  .inl ⟨[], rfl, by simp, by simp, by simp, fun _ _ => rfl⟩

/-- In a run of careful calls profiles and keys stay paired. -/
theorem auth_paired (cipher : Cipher) {calls : List Call} (careful : Meets (step cipher) start (Careful cipher) calls) :
    (∀ w, Visits (step cipher) start calls w → Paired cipher w) ∧ Meets (step cipher) start (Kept cipher) calls := by
  have visited : ∀ w, Visits (step cipher) start calls w → Inv cipher w := by
    refine careful.visited start_inv ?_
    rintro w call w' inv here taken
    cases taken
    exact (inv.perform here).1
  refine ⟨fun w here => (visited w here).paired, ?_⟩
  intro before call after w split here
  exact ((visited w ⟨before, call :: after, split, here⟩).perform (careful before call after w split here)).2

end

def sampleEnv (now : String) (keyWrite : Written) : AddEnv := ⟨now, now, ⟨List.replicate 12 0, rfl⟩, .done, keyWrite⟩

def addMain (now : String) (makeDefault : Bool) (keyWrite : Written) : Call :=
  .add "main" "openai" "sk-1" none none makeDefault (sampleEnv now keyWrite)

/-- An update loses the time of creation and the default flag; an `add` whose key is not written
leaves a profile without one; a `remove` reports success over a failed delete. -/
theorem auth_torn_apart :
    ¬ Kept sampleCipher (perform sampleCipher start (addMain "2026-01-01" true .done)).2 (addMain "2026-01-02" false .done) ∧
    ¬ Paired sampleCipher (perform sampleCipher start (addMain "2026-01-01" true .refused)).2 ∧
    ¬ Kept sampleCipher (perform sampleCipher start (addMain "2026-01-01" true .done)).2 (.remove "main" .done .refused) := by
  refine ⟨?_, ?_, ?_⟩
  · intro kept
    have same := kept.createdAt _ _ _ _ rfl rfl (List.mem_singleton.mpr rfl) (List.mem_singleton.mpr rfl) rfl
    exact absurd same (by decide)
  · intro paired
    obtain ⟨key, read⟩ := (paired.listed "main").mp ⟨_, rfl, _, List.mem_singleton.mpr rfl, rfl⟩
    cases read
  · intro kept
    obtain ⟨e, failed⟩ := kept.failing (by decide)
    cases failed

/-- A profile is added, refused a removal by the disk, made default and removed. -/
def mainCalls : List Call := [addMain "2026-01-01" false .done, .remove "main" .refused .done, .switch "main" .done,
  .remove "main" .done .done]

theorem mainCalls_paired : (∀ w, Visits (step sampleCipher) start mainCalls w → Paired sampleCipher w) ∧
    Meets (step sampleCipher) start (Kept sampleCipher) mainCalls := by
  refine auth_paired sampleCipher (meets_cons rfl ?_ (meets_cons rfl ?_ (meets_cons rfl ?_ (meets_cons rfl ?_ meets_nil))))
  · intro profiles loaded
    cases loaded
    exact ⟨nofun, fun _ => ⟨nofun, rfl⟩⟩
  · exact fun _ => ⟨nofun, nofun⟩
  · exact fun _ => nofun
  · exact fun _ => ⟨nofun, fun _ => rfl⟩

end Zaion.Secrets
