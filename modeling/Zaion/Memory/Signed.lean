import Zaion.Lib.Joined
import Zaion.Memory.Typed
import Zaion.Watchdog.History

/-! What a signature fixes of a memory and of a repair. The signed text joins the fields with a
bar, which the fields may hold as well. -/
namespace Zaion.Memory

open Lib Watchdog

section

variable {F : Type} (host : Host) (float : FloatOps F) (keypair : Keypair)

/-- What is signed of a memory. -/
def TypedMemoryEntry.message (entry : TypedMemoryEntry F) : String :=
  canonicalMsg float entry.memoryType.asStr entry.key entry.content entry.principalId entry.sessionId entry.createdAt
    entry.confidence entry.source

/-- The signed fields agree. -/
structure SameMemory (a b : TypedMemoryEntry F) : Prop where
  memoryType : b.memoryType = a.memoryType
  key : b.key = a.key
  content : b.content = a.content
  principalId : b.principalId = a.principalId
  sessionId : b.sessionId = a.sessionId
  createdAt : b.createdAt = a.createdAt
  confidence : float.print b.confidence = float.print a.confidence
  source : b.source = a.source

/-- No other memory has the text of this one, and its signature verifies for no other. -/
structure FixesMemory (entry : TypedMemoryEntry F) : Prop where
  message : ∀ other : TypedMemoryEntry F, other.message float = entry.message float → SameMemory float entry other
  signature : ∀ other : TypedMemoryEntry F,
    other.signatureHex = hexEncode (host.sign keypair (Host.utf8 (entry.message float))) →
    other.verify host float keypair = .ok () → SameMemory float entry other

/-- No bar in the text. -/
def Plain (text : String) : Prop := '|' ∉ text.toList

instance (text : String) : Decidable (Plain text) := inferInstanceAs (Decidable (_ ∉ _))

/-- One of the words stands between bars, the one before the text counted. -/
def HoldsWord (words : Set String) (text : String) : Prop :=
  ∃ word ∈ words, ∃ before after : String, "|" ++ text = before ++ "|" ++ word ++ "|" ++ after

structure FixedMemory (entry : TypedMemoryEntry F) : Prop where
  key : Plain entry.key
  content : Plain entry.content
  principalId : Plain entry.principalId
  sessionId : Plain entry.sessionId
  createdAt : Plain entry.createdAt
  source : ¬ HoldsWord (Set.range float.print) entry.source

end

/-- The signed fields of a repair agree. -/
structure SameRepair (a b : RepairEntry) : Prop where
  timestamp : b.timestamp = a.timestamp
  crashSummary : b.crashSummary = a.crashSummary
  fixType : b.fixType = a.fixType
  fixContent : b.fixContent = a.fixContent
  filePath : b.filePath = a.filePath
  result : b.result = a.result
  principalId : b.principalId = a.principalId

structure FixesRepair (host : Host) (keypair : Keypair) (entry : RepairEntry) : Prop where
  message : ∀ other : RepairEntry, other.message = entry.message → SameRepair entry other
  signature : ∀ other : RepairEntry, other.signatureHex = hexEncode (host.sign keypair (Host.utf8 entry.message)) →
    other.verify host keypair = .ok () → SameRepair entry other

/-- An absent path reads like an empty one. -/
structure FixedRepair (entry : RepairEntry) : Prop where
  timestamp : Plain entry.timestamp
  crashSummary : Plain entry.crashSummary
  fixType : Plain entry.fixType
  fixContent : Plain entry.fixContent
  filePath : ∃ path, entry.filePath = some path ∧ path ≠ "" ∧ Plain path
  principalId : ¬ HoldsWord (Set.range RepairResult.asStr) entry.principalId

/-! Texts as records. -/

theorem holdsWord_iff {words : Set String} {text : String} : HoldsWord words text ↔
    ∃ w ∈ Set.image String.toList words, ∃ before after, '|' :: text.toList = before ++ '|' :: (w ++ '|' :: after) := by
  constructor
  · rintro ⟨word, known, before, after, cut⟩
    refine ⟨word.toList, ⟨word, known, rfl⟩, before.toList, after.toList, ?_⟩
    simpa using congrArg String.toList cut
  · rintro ⟨_, ⟨word, known, rfl⟩, before, after, cut⟩
    refine ⟨word, known, String.ofList before, String.ofList after, ?_⟩
    apply String.toList_injective
    simpa using cut

theorem Plain.holdsNo {text : String} (plain : Plain text) (words : Set String) : ¬ HoldsWord words text := by
  rintro ⟨word, -, before, after, cut⟩
  have bars := congrArg (fun s : String => s.toList.count '|') cut
  have none_ : text.toList.count '|' = 0 := List.count_eq_zero.mpr plain
  simp [none_] at bars
  omega

section

variable {F : Type} {host : Host} {float : FloatOps F} {keypair : Keypair}

def TypedMemoryEntry.front (entry : TypedMemoryEntry F) : List (List Char) :=
  [entry.key.toList, entry.content.toList, entry.principalId.toList, entry.sessionId.toList, entry.createdAt.toList]

theorem TypedMemoryEntry.message_toList (entry : TypedMemoryEntry F) : (entry.message float).toList =
    entry.memoryType.asStr.toList ++ '|' :: joinedRecord '|' entry.front (float.print entry.confidence).toList
      entry.source.toList := by
  have text : entry.message float = entry.memoryType.asStr ++ "|" ++ entry.key ++ "|" ++ entry.content ++ "|" ++
      entry.principalId ++ "|" ++ entry.sessionId ++ "|" ++ entry.createdAt ++ "|" ++ float.print entry.confidence ++ "|" ++
      entry.source := rfl
  simp [text,joinedRecord,TypedMemoryEntry.front,List.intercalate_cons_cons]

theorem MemoryType.plain (memoryType : MemoryType) : '|' ∉ memoryType.asStr.toList := by cases memoryType <;> decide

theorem MemoryType.asStr_injective : Function.Injective MemoryType.asStr := by
  intro a b same
  have read := congrArg MemoryType.fromStr same
  rw [MemoryType.fromStr_asStr,MemoryType.fromStr_asStr] at read
  exact Option.some.inj read

/-- The same text: the same kind, and the same record behind it. -/
theorem message_eq_iff {a b : TypedMemoryEntry F} : b.message float = a.message float ↔ b.memoryType = a.memoryType ∧
    joinedRecord '|' b.front (float.print b.confidence).toList b.source.toList =
      joinedRecord '|' a.front (float.print a.confidence).toList a.source.toList := by
  rw [← String.toList_inj,TypedMemoryEntry.message_toList,TypedMemoryEntry.message_toList]
  constructor
  · intro same
    have pieces := congrArg (List.splitOn '|') same
    rw [List.splitOn_append_cons_self_of_not_mem (MemoryType.plain _),
      List.splitOn_append_cons_self_of_not_mem (MemoryType.plain _)] at pieces
    obtain ⟨kind, rest⟩ := List.cons.inj pieces
    exact ⟨MemoryType.asStr_injective (String.toList_injective kind), splitOn_injective '|' rest⟩
  · rintro ⟨kind, rest⟩
    rw [kind,rest]

/-- The confidences as they are printed. -/
def confidences (float : FloatOps F) : Set (List Char) := Set.image String.toList (Set.range float.print)

/-- An entry from the parts of its record. -/
def TypedMemoryEntry.withParts (entry : TypedMemoryEntry F) (key content principalId sessionId createdAt : List Char)
    (confidence : F) (source : List Char) : TypedMemoryEntry F :=
  { entry with
    key := String.ofList key
    content := String.ofList content
    principalId := String.ofList principalId
    sessionId := String.ofList sessionId
    createdAt := String.ofList createdAt
    confidence := confidence
    source := String.ofList source }

theorem five_of_length {α : Type} {l : List α} (size : l.length = 5) : ∃ a b c d e, l = [a, b, c, d, e] := by
  match l, size with
  | [a, b, c, d, e], _ => exact ⟨a, b, c, d, e, rfl⟩

theorem memory_message_fixed_iff (entry : TypedMemoryEntry F) :
    (∀ other : TypedMemoryEntry F, other.message float = entry.message float → SameMemory float entry other) ↔
      ∀ front word tail, front.length = entry.front.length → word ∈ confidences float →
        joinedRecord '|' front word tail = joinedRecord '|' entry.front (float.print entry.confidence).toList entry.source.toList →
        front = entry.front ∧ word = (float.print entry.confidence).toList ∧ tail = entry.source.toList := by
  constructor
  · intro fixed front word tail size known same
    obtain ⟨key, content, principalId, sessionId, createdAt, rfl⟩ := five_of_length size
    obtain ⟨_, ⟨confidence, rfl⟩, rfl⟩ := known
    have built : (entry.withParts key content principalId sessionId createdAt confidence tail).message float =
        entry.message float := by
      rw [message_eq_iff]
      refine ⟨rfl, ?_⟩
      simpa [TypedMemoryEntry.withParts,TypedMemoryEntry.front] using same
    have agrees := fixed _ built
    refine ⟨?_, congrArg String.toList agrees.confidence, ?_⟩
    · simp [TypedMemoryEntry.front,← agrees.key,← agrees.content,← agrees.principalId,← agrees.sessionId,
        ← agrees.createdAt,TypedMemoryEntry.withParts]
    · simp [← agrees.source,TypedMemoryEntry.withParts]
  · intro fixed other same
    obtain ⟨kind, rest⟩ := message_eq_iff.mp same
    obtain ⟨fronts, word, tail⟩ := fixed other.front _ _ rfl ⟨_, ⟨other.confidence, rfl⟩, rfl⟩ rest
    simp only [TypedMemoryEntry.front,List.cons.injEq,String.toList_inj,and_true] at fronts
    obtain ⟨key, content, principalId, sessionId, createdAt⟩ := fronts
    exact ⟨kind, key, content, principalId, sessionId, createdAt, String.toList_inj.mp word, String.toList_inj.mp tail⟩

/-- What verifies under a signature has the text that was signed. -/
theorem message_of_verify {entry other : TypedMemoryEntry F}
    (exact : ∀ m m', host.verifySignature keypair.publicKey m' (host.sign keypair m) = true → m' = m)
    (signed : other.signatureHex = hexEncode (host.sign keypair (Host.utf8 (entry.message float))))
    (verified : other.verify host float keypair = .ok ()) : other.message float = entry.message float := by
  simp only [TypedMemoryEntry.verify,signed,hexDecode_hexEncode] at verified
  split at verified
  · next accepted => exact toByteArray_toList_injective (exact _ _ accepted)
  · cases verified

theorem fixesMemory_iff (exact : ∀ m m', host.verifySignature keypair.publicKey m' (host.sign keypair m) = true → m' = m)
    (printed : ∀ confidence, '|' ∉ (float.print confidence).toList) (entry : TypedMemoryEntry F) :
    FixesMemory host float keypair entry ↔ FixedMemory float entry := by
  have known : ∀ w ∈ confidences float, '|' ∉ w := by
    rintro _ ⟨_, ⟨confidence, rfl⟩, rfl⟩
    exact printed confidence
  have inside : (float.print entry.confidence).toList ∈ confidences float := ⟨_, ⟨entry.confidence, rfl⟩, rfl⟩
  have fixed := (memory_message_fixed_iff entry).trans
    (record_fixed_iff entry.source.toList known (by simp [TypedMemoryEntry.front]) inside)
  constructor
  · intro fixes
    obtain ⟨plain, last⟩ := fixed.mp fixes.message
    simp only [TypedMemoryEntry.front,List.forall_mem_cons] at plain
    obtain ⟨key, content, principalId, sessionId, createdAt, -⟩ := plain
    refine ⟨key, content, principalId, sessionId, createdAt, ?_⟩
    rw [holdsWord_iff]
    rintro ⟨w, listed, before, after, cut⟩
    exact last w listed before after cut
  · intro plain
    have message := fixed.mpr ⟨by
      simp only [TypedMemoryEntry.front,List.forall_mem_cons]
      exact ⟨plain.key, plain.content, plain.principalId, plain.sessionId, plain.createdAt, by simp⟩, by
      intro w listed before after cut
      exact plain.source (holdsWord_iff.mpr ⟨w, listed, before, after, cut⟩)⟩
    exact ⟨message, fun other signed verified => message other (message_of_verify exact signed verified)⟩

end

section

variable {host : Host} {keypair : Keypair}

def repairFront (entry : RepairEntry) : List (List Char) :=
  [entry.timestamp.toList, entry.crashSummary.toList, entry.fixType.toList, entry.fixContent.toList,
    (entry.filePath.getD "").toList]

theorem repair_toList (entry : RepairEntry) : entry.message.toList =
    joinedRecord '|' (repairFront entry) entry.result.asStr.toList entry.principalId.toList := by
  simp [RepairEntry.message,RepairEntry.canonicalMsg,joinedRecord,repairFront,List.intercalate_cons_cons]

theorem repair_message_eq_iff {a b : RepairEntry} : b.message = a.message ↔
    joinedRecord '|' (repairFront b) b.result.asStr.toList b.principalId.toList =
      joinedRecord '|' (repairFront a) a.result.asStr.toList a.principalId.toList := by
  rw [← String.toList_inj,repair_toList,repair_toList]

/-- The results as they are written. -/
def results : Set (List Char) := Set.image String.toList (Set.range RepairResult.asStr)

theorem results_plain : ∀ w ∈ results, '|' ∉ w := by
  rintro _ ⟨_, ⟨result, rfl⟩, rfl⟩
  cases result <;> decide

theorem asStr_result_injective : Function.Injective RepairResult.asStr := by
  intro a b
  cases a <;> cases b <;> decide

theorem repair_message_fixed_iff (entry : RepairEntry) :
    (∀ other : RepairEntry, other.message = entry.message → SameRepair entry other) ↔
      (∀ front word tail, front.length = (repairFront entry).length → word ∈ results →
        joinedRecord '|' front word tail = joinedRecord '|' (repairFront entry) entry.result.asStr.toList entry.principalId.toList →
        front = repairFront entry ∧ word = entry.result.asStr.toList ∧ tail = entry.principalId.toList) ∧
      ∃ path, entry.filePath = some path ∧ path ≠ "" := by
  constructor
  · intro fixed
    constructor
    · intro front word tail size known same
      obtain ⟨timestamp, crashSummary, fixType, fixContent, path, rfl⟩ := five_of_length size
      obtain ⟨_, ⟨result, rfl⟩, rfl⟩ := known
      have built : RepairEntry.message { entry with
          timestamp := String.ofList timestamp, crashSummary := String.ofList crashSummary,
          fixType := String.ofList fixType, fixContent := String.ofList fixContent,
          filePath := some (String.ofList path), result := result, principalId := String.ofList tail } =
          entry.message := by
        rw [repair_message_eq_iff]
        simpa [repairFront] using same
      have agrees := fixed _ built
      refine ⟨?_, congrArg (fun result => result.asStr.toList) agrees.result, ?_⟩
      · simp [repairFront,← agrees.timestamp,← agrees.crashSummary,← agrees.fixType,← agrees.fixContent,
          ← agrees.filePath]
      · simp [← agrees.principalId]
    · cases path : entry.filePath with
      | none =>
        have agrees := fixed { entry with filePath := some "" } (by simp [RepairEntry.message,path])
        have different := agrees.filePath
        simp [path] at different
      | some text =>
        refine ⟨text, rfl, ?_⟩
        rintro rfl
        have agrees := fixed { entry with filePath := none } (by simp [RepairEntry.message,path])
        have different := agrees.filePath
        simp [path] at different
  · rintro ⟨fixed, path, there, full⟩ other same
    obtain ⟨fronts, word, tail⟩ := fixed (repairFront other) _ _ rfl ⟨_, ⟨other.result, rfl⟩, rfl⟩
      (repair_message_eq_iff.mp same)
    simp only [repairFront,List.cons.injEq,String.toList_inj,and_true,there,Option.getD_some] at fronts
    obtain ⟨timestamp, crashSummary, fixType, fixContent, filePath⟩ := fronts
    have filePath : other.filePath = some path := by
      cases shown : other.filePath with
      | none =>
        rw [shown] at filePath
        exact absurd filePath.symm full
      | some text =>
        rw [shown] at filePath
        exact congrArg some filePath
    exact ⟨timestamp, crashSummary, fixType, fixContent, filePath.trans there.symm,
      asStr_result_injective (String.toList_inj.mp word), String.toList_inj.mp tail⟩

theorem repair_message_of_verify {entry other : RepairEntry}
    (exact : ∀ m m', host.verifySignature keypair.publicKey m' (host.sign keypair m) = true → m' = m)
    (signed : other.signatureHex = hexEncode (host.sign keypair (Host.utf8 entry.message)))
    (verified : other.verify host keypair = .ok ()) : other.message = entry.message := by
  simp only [RepairEntry.verify,signed,hexDecode_hexEncode] at verified
  split at verified
  · cases verified
  split at verified
  · next accepted => exact toByteArray_toList_injective (exact _ _ accepted)
  · cases verified

theorem fixesRepair_iff (exact : ∀ m m', host.verifySignature keypair.publicKey m' (host.sign keypair m) = true → m' = m)
    (entry : RepairEntry) : FixesRepair host keypair entry ↔ FixedRepair entry := by
  have inside : entry.result.asStr.toList ∈ results := ⟨_, ⟨entry.result, rfl⟩, rfl⟩
  have two : 2 ≤ (repairFront entry).length := by simp [repairFront]
  have fixed := record_fixed_iff entry.principalId.toList results_plain two inside
  constructor
  · intro fixes
    obtain ⟨general, path, there, full⟩ := (repair_message_fixed_iff entry).mp fixes.message
    obtain ⟨plain, last⟩ := fixed.mp general
    simp only [repairFront,List.forall_mem_cons,there,Option.getD_some] at plain
    obtain ⟨timestamp, crashSummary, fixType, fixContent, filePath, -⟩ := plain
    refine ⟨timestamp, crashSummary, fixType, fixContent, ⟨path, there, full, filePath⟩, ?_⟩
    rw [holdsWord_iff]
    rintro ⟨w, listed, before, after, cut⟩
    exact last w listed before after cut
  · intro plain
    obtain ⟨path, there, full, filePath⟩ := plain.filePath
    have general := fixed.mpr ⟨by
      simp only [repairFront,List.forall_mem_cons,there,Option.getD_some]
      exact ⟨plain.timestamp, plain.crashSummary, plain.fixType, plain.fixContent, filePath, by simp⟩, by
      intro w listed before after cut
      exact plain.principalId (holdsWord_iff.mpr ⟨w, listed, before, after, cut⟩)⟩
    have message := (repair_message_fixed_iff entry).mpr ⟨general, path, there, full⟩
    exact ⟨message, fun other signed verified => message other (repair_message_of_verify exact signed verified)⟩

end

/-- A signature fixes a memory exactly when its fields before the confidence have no bar and no
piece of its source but the last is a printed confidence, and a repair exactly when its fields
before the result have no bar, it names a path, and no piece of its principal but the last is
a result. A signature made for one text verifies for no other, and no confidence is printed
with a bar. -/
theorem signature_fixes_iff {F : Type} {host : Host} {float : FloatOps F} {keypair : Keypair}
    (exact : ∀ m m', host.verifySignature keypair.publicKey m' (host.sign keypair m) = true → m' = m)
    (printed : ∀ confidence, '|' ∉ (float.print confidence).toList) :
    (∀ entry : TypedMemoryEntry F, FixesMemory host float keypair entry ↔ FixedMemory float entry) ∧
    ∀ entry : RepairEntry, FixesRepair host keypair entry ↔ FixedRepair entry :=
  ⟨fixesMemory_iff exact printed, fixesRepair_iff exact⟩

theorem sampleHost_signs_one (keypair : Keypair) (m m' : List UInt8)
    (verified : sampleHost.verifySignature keypair.publicKey m' (sampleHost.sign keypair m) = true) : m' = m :=
  (List.append_cancel_left (of_decide_eq_true verified)).symm

theorem thousandths_plain (n : Nat) : '|' ∉ (thousandths.print n).toList := by
  have digits (n : Nat) : '|' ∉ Nat.toDigits 10 n := by
    intro member
    have digit := Nat.isDigit_of_mem_toDigits (by decide) (by decide) member
    simp at digit
  simp [thousandths,digits]

/-- A memory of the user, as it is made. -/
def sampleMemory (key content source : String) : TypedMemoryEntry Nat :=
  .new sampleHost thousandths memoryKeypair .user key content "session-1" source "2026-01-01T00:00:00+00:00"

def sampleRepair (fixContent : String) (filePath : Option String) : RepairEntry :=
  ⟨none, "2026-01-01T00:00:00+00:00", "parse error", "file_content", fixContent, filePath, .success, some 7, "zaion107", ""⟩

theorem plain_records_fixed :
    FixesMemory sampleHost thousandths memoryKeypair (sampleMemory "role" "senior engineer" "conversation-1") ∧
    FixesRepair sampleHost memoryKeypair (sampleRepair "[core]" (some "config.toml")) := by
  obtain ⟨memories, repairs⟩ := signature_fixes_iff (sampleHost_signs_one memoryKeypair) thousandths_plain
  constructor
  · refine (memories _).mpr ⟨by decide, by decide, by decide, by decide, by decide, Plain.holdsNo (by decide) _⟩
  · refine (repairs _).mpr ⟨by decide, by decide, by decide, by decide, ⟨"config.toml", rfl, by decide, by decide⟩,
      Plain.holdsNo (by decide) _⟩

/-- A bar moves between the key and the content, and between a fix and its path: the signatures verify. -/
theorem bars_move :
    (sampleMemory "a" "b|c" "chat").message thousandths = (sampleMemory "a|b" "c" "chat").message thousandths ∧
    ({ sampleMemory "a" "b|c" "chat" with signatureHex := (sampleMemory "a|b" "c" "chat").signatureHex } :
      TypedMemoryEntry Nat).verify sampleHost thousandths memoryKeypair = .ok () ∧
    (sampleRepair "x" (some "y|z")).message = (sampleRepair "x|y" (some "z")).message ∧
    (sampleRepair "x" none).message = (sampleRepair "x" (some "")).message ∧
    ¬ FixesMemory sampleHost thousandths memoryKeypair (sampleMemory "a|b" "c" "chat") ∧
    ¬ FixesRepair sampleHost memoryKeypair (sampleRepair "x|y" (some "z")) := by
  have memory : (sampleMemory "a" "b|c" "chat").message thousandths = (sampleMemory "a|b" "c" "chat").message thousandths := by
    decide
  have repair : (sampleRepair "x" (some "y|z")).message = (sampleRepair "x|y" (some "z")).message := by decide
  refine ⟨memory, by decide +kernel, repair, by decide +kernel, ?_, ?_⟩
  · intro fixes
    have key := (fixes.message _ memory).key
    revert key
    decide
  · intro fixes
    have path := (fixes.message _ repair).filePath
    revert path
    decide

end Zaion.Memory
