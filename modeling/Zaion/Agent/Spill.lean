import Zaion.Agent.ToolResults
import Mathlib.Logic.Relation
import Mathlib.Data.Set.Function

/-! Which spilled outputs can still be read. Every result is held by its message, word for
word or through the file the message names; what a call writes stays below the root. -/
namespace Zaion.Agent

open Lib

/-! Result files: one plain name below the storage directory. -/

theorem ofSegment_long {text : List Char} (long : 3 ≤ text.length) : Path.ofSegment text = some (.normal text) := by
  match text, long with
  | _ :: _ :: _ :: _, _ => simp [Path.ofSegment]

theorem stemChar_ne_slash {c d : Char} (kept : stemChar c = some d) : d ≠ '/' := by
  rintro rfl
  unfold stemChar at kept
  split at kept
  · rename_i safe
    cases kept
    exact absurd safe (by decide)
  · split at kept <;> simp at kept

theorem lowerHex_ne_slash {c : Char} (digit : isLowerHex c = true) : c ≠ '/' := by
  rintro rfl
  exact absurd digit (by decide)

section

variable {host : Host} (hex : host.DigestIsHex) {root : String}

include hex

theorem safeFileStem_no_slash (id : String) : '/' ∉ (safeFileStem host id).toList := by
  unfold safeFileStem
  simp only
  split
  · intro slash
    simp only [String.toList_append,List.mem_append,String.toList_ofList] at slash
    rcases slash with name | digit
    · exact absurd name (by decide)
    · exact lowerHex_ne_slash ((hex _).2 _ (List.mem_of_mem_take digit)) rfl
  · intro slash
    rw [String.toList_ofList] at slash
    obtain ⟨c, _, kept⟩ := List.mem_filterMap.mp (List.mem_of_mem_take slash)
    exact stemChar_ne_slash kept rfl

theorem safeFileStem_plain (id : String) : Path.Plain (safeFileStem host id ++ ".txt") := by
  constructor
  · apply ofSegment_long
    simp
  · rw [String.toList_append,List.mem_append,not_or]
    exact ⟨safeFileStem_no_slash hex id, by decide⟩

theorem resultPath_stem {a b : String} (same : resultPath host root a = resultPath host root b) :
    safeFileStem host a = safeFileStem host b := by
  have first := (safeFileStem_plain hex a).not_absolute
  have second := (safeFileStem_plain hex b).not_absolute
  simp only [resultPath,Path.join,first,second,Bool.false_eq_true,if_false] at same
  split at same
  · exact (String.append_left_inj _).mp ((String.append_right_inj _).mp same)
  · exact (String.append_left_inj _).mp ((String.append_right_inj _).mp same)

theorem absolutize_resultPath (currentDir : Option String) (id : String) :
    absolutizeForCheck currentDir (resultPath host root id) =
      absolutizeForCheck currentDir root ++ [.normal (safeFileStem host id ++ ".txt").toList] := by
  have plain := safeFileStem_plain hex id
  unfold absolutizeForCheck resultPath
  rw [Path.isAbsolute_child root plain]
  by_cases absolute : Path.isAbsolute root = true
  · rw [if_pos absolute,if_pos absolute,Path.components_child root plain,Path.normalize_append_normal]
  · have relative : Path.isAbsolute root = false := by simpa using absolute
    have below : Path.isAbsolute (Path.join root (safeFileStem host id ++ ".txt")) = false := by
      rw [Path.isAbsolute_child root plain,relative]
    rw [if_neg absolute,if_neg absolute]
    by_cases empty : currentDir.getD "." = ""
    · have alone (path : String) (h : Path.isAbsolute path = false) : Path.join "" path = path := by
        simp [Path.join,h]
      rw [empty,alone _ relative,alone _ below,Path.components_child root plain,Path.normalize_append_normal]
    · rw [Path.components_join relative empty,Path.components_join below empty,Path.names_child root plain,
        ← List.append_assoc,Path.normalize_append_normal]

/-- The check on the way to a result file never fails. -/
theorem ensureChildPath_resultPath (currentDir : Option String) (id : String) :
    ensureChildPath currentDir root (resultPath host root id) = .ok () := by
  rw [ensureChildPath,absolutize_resultPath hex,if_pos (List.prefix_append _ _)]

end

/-! What one call does to the disk. The text of a path plays no part from here on. -/

attribute [local irreducible] resultPath

@[simp] theorem Disk.set_same (disk : Disk) (path : String) (content : Option String) :
    (disk.set path content).files path = content := by simp [Disk.set]

theorem Disk.set_other {disk : Disk} {path other : String} {content : Option String} (h : other ≠ path) :
    (disk.set path content).files other = disk.files other := by simp [Disk.set,h]

@[simp] theorem Disk.set_currentDir (disk : Disk) (path : String) (content : Option String) :
    (disk.set path content).currentDir = disk.currentDir := rfl

/-- The ways `maybe_store_tool_result` can end. -/
inductive Stores (path content : String) (disk : Disk) : Disk × Except StorageError StoredToolResult → Prop
  | kept (metadata : ToolResultMetadata) : Stores path content disk (disk, .ok ⟨content, metadata⟩)
  | failed (left : Option String) (e : StorageError) : Stores path content disk (disk.set path left, .error e)
  | spilled (preview : String) (more : Bool) (metadata : ToolResultMetadata) : Stores path content disk
      (disk.set path (some content),
        .ok ⟨buildPersistedMessage preview more content.utf8ByteSize path, metadata⟩)

theorem maybeStore_spec {host : Host} (hex : host.DigestIsHex) {content toolName toolCallId : String} {threshold : Nat}
    {config : ToolResultBudgetConfig} {target : HostToolResultStorageTarget} {disk : Disk} {path output : String}
    (file : resultPath host target.root toolCallId = path) (text : content = output) :
    Stores path output disk
      (maybeStoreToolResultWithTarget host content toolName toolCallId threshold config target disk) := by
  subst file text
  unfold maybeStoreToolResultWithTarget
  simp only [stableResultPath,ensureChildPath_resultPath hex,Except.map,writeResultFile,Disk.write]
  split
  · exact .kept _
  · split
    · rename_i failing
      split at failing
      · cases failing
        exact .failed _ _
      · cases failing
    · rename_i done
      split at done
      · cases done
      · cases done
        exact .spilled _ _ _

/-- Only the files of these calls may differ. -/
structure Touches (host : Host) (root : String) (ids : List String) (disk disk' : Disk) : Prop where
  currentDir : disk'.currentDir = disk.currentDir
  files : ∀ path, (∀ id ∈ ids, path ≠ resultPath host root id) → disk'.files path = disk.files path

namespace Touches

variable {host : Host} {root : String} {ids more : List String} {a b c : Disk}

theorem refl : Touches host root ids a a := ⟨rfl, fun _ _ => rfl⟩

theorem trans (first : Touches host root ids a b) (second : Touches host root ids b c) : Touches host root ids a c :=
  ⟨second.currentDir.trans first.currentDir,
    fun path untouched => (second.files path untouched).trans (first.files path untouched)⟩

theorem mono (touches : Touches host root ids a b) (sub : ∀ id ∈ ids, id ∈ more) : Touches host root more a b :=
  ⟨touches.currentDir, fun path untouched => touches.files path (fun id member => untouched id (sub id member))⟩

theorem set {id : String} {content : Option String} (member : id ∈ ids) :
    Touches host root ids a (a.set (resultPath host root id) content) :=
  ⟨Disk.set_currentDir .., fun _ untouched => Disk.set_other (untouched id member)⟩

theorem of_stores {id content : String} {outcome : Disk × Except StorageError StoredToolResult}
    (stores : Stores (resultPath host root id) content a outcome) (member : id ∈ ids) :
    Touches host root ids a outcome.1 := by
  cases stores with
  | kept => exact refl
  | failed => exact set member
  | spilled => exact set member

end Touches

/-! Results held by their messages. -/

/-- The message is the notice of a spill that names the path. -/
def Names (content path : String) : Prop :=
  ∃ preview more size, content = buildPersistedMessage preview more size path

/-- The whole output can be read: the message is it, or names the file that has it. -/
def Recoverable (disk : Disk) (result : ToolResult) (message : ToolResultMessage) : Prop :=
  message.content = result.output ∨ ∃ path, Names message.content path ∧ disk.files path = some result.output

structure Held (host : Host) (root : String) (disk : Disk) (result : ToolResult) (message : ToolResultMessage) :
    Prop where
  id : message.toolCallId = result.toolCallId
  content : message.content = result.output ∨
    (Names message.content (resultPath host root result.toolCallId) ∧
      disk.files (resultPath host root result.toolCallId) = some result.output)

theorem Names.alreadyStored {message : ToolResultMessage} {path : String} (names : Names message.content path) :
    message.alreadyStored = true := by
  obtain ⟨preview, more, size, same⟩ := names
  have tagged : containsText message.content persistedOutputTag = true := by
    rw [same]
    apply decide_eq_true
    refine ⟨[], ?_⟩
    simp only [buildPersistedMessage,String.toList_append,List.append_assoc,List.nil_append]
    exact ⟨_, rfl⟩
  rw [ToolResultMessage.alreadyStored,tagged,Bool.or_true]

namespace Held

variable {host : Host} {root : String} {disk disk' : Disk} {result : ToolResult} {message : ToolResultMessage}

theorem recoverable (held : Held host root disk result message) : Recoverable disk result message := by
  rcases held.content with verbatim | ⟨names, stored⟩
  · exact .inl verbatim
  · exact .inr ⟨_, names, stored⟩

/-- A message not stored yet still is the output. -/
theorem verbatim (held : Held host root disk result message) (unstored : message.alreadyStored = false) :
    message.content = result.output := by
  rcases held.content with verbatim | ⟨names, _⟩
  · exact verbatim
  · rw [names.alreadyStored] at unstored
    cases unstored

theorem frame (held : Held host root disk result message)
    (kept : disk'.files (resultPath host root result.toolCallId) = disk.files (resultPath host root result.toolCallId)) :
    Held host root disk' result message := ⟨held.id, by rw [kept]; exact held.content⟩

/-- A message that is the output does not care about the disk. -/
theorem of_verbatim (id : message.toolCallId = result.toolCallId) (verbatim : message.content = result.output) :
    Held host root disk result message := ⟨id, .inl verbatim⟩

theorem stored {outcome : Disk × Except StorageError StoredToolResult} {stored : StoredToolResult}
    (stores : Stores (resultPath host root result.toolCallId) result.output disk outcome)
    (done : outcome.2 = .ok stored) (id : message.toolCallId = result.toolCallId)
    (content : message.content = stored.injectableContent) : Held host root outcome.1 result message := by
  cases stores with
  | kept metadata =>
    cases done
    exact of_verbatim id content
  | failed => cases done
  | spilled preview more metadata =>
    cases done
    refine ⟨id, .inr ⟨⟨preview, more, _, content⟩, ?_⟩⟩
    rw [Disk.set_same]

end Held

end Zaion.Agent
