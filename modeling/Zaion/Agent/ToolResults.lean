import Zaion.Host
import Zaion.Lib.Path
import Zaion.Lib.Text

/-! Large tool results spilled to files. The disk is what each path holds and a script of
write faults: a write that fails may leave anything at its path, and only there. The
storage target is the host one; paths are UTF-8 texts. -/
namespace Zaion.Agent

open Lib

structure ToolResult where
  toolCallId : String
  toolName : String
  output : String
  success : Bool
  deriving DecidableEq, Repr

structure ToolResultBudgetConfig where
  resultBudgetBytes : Nat
  turnBudgetBytes : Nat
  previewBytes : Nat
  storageDir : String
  deriving DecidableEq, Repr

/-- `ToolResultBudgetConfig::new`, with the default budgets. -/
def ToolResultBudgetConfig.new (storageDir : String) : ToolResultBudgetConfig := ⟨100000, 200000, 4000, storageDir⟩

structure ToolResultMetadata where
  toolName : String
  toolCallId : String
  bytes : Nat
  previewBytes : Nat
  truncated : Bool
  stored : Bool
  path : Option String
  environmentId : Option String
  environmentKind : Option String
  preview : String
  deriving DecidableEq, Repr

structure StoredToolResult where
  injectableContent : String
  metadata : ToolResultMetadata
  deriving DecidableEq, Repr

structure ToolResultMessage where
  toolName : String
  toolCallId : String
  content : String
  metadata : Option ToolResultMetadata
  deriving DecidableEq, Repr

def persistedOutputTag : String := "<persisted-output>"
def persistedOutputClosingTag : String := "</persisted-output>"

def ToolResultMessage.new (toolName toolCallId content : String) : ToolResultMessage :=
  ⟨toolName, toolCallId, content, none⟩

def ToolResultMessage.alreadyStored (message : ToolResultMessage) : Bool :=
  message.metadata.any (fun metadata => metadata.stored) || containsText message.content persistedOutputTag

inductive StorageError where
  | unsafePath (path : String)
  | io
  | state (text : String)
  deriving DecidableEq, Repr

structure HostToolResultStorageTarget where
  root : String
  environmentId : Option String
  environmentKind : Option String
  deriving DecidableEq, Repr

/-- `HostToolResultStorageTarget::new`. -/
def HostToolResultStorageTarget.new (root : String) : HostToolResultStorageTarget := ⟨root, none, none⟩

structure Disk where
  files : String → Option String
  currentDir : Option String
  /-- Of each write to come: `none` when it succeeds, else what it leaves at its path. -/
  faults : List (Option (Option String))

namespace Disk

def set (disk : Disk) (path : String) (content : Option String) : Disk :=
  { disk with files := fun other => if other = path then content else disk.files other, faults := disk.faults.tail }

/-- `create_dir_all` and `fs::write`. -/
def write (disk : Disk) (path content : String) : Disk × Except StorageError Unit :=
  match disk.faults with
  | some left :: _ => (disk.set path left, .error .io)
  | _ => (disk.set path (some content), .ok ())

end Disk

/-- `absolutize_for_check`. -/
def absolutizeForCheck (currentDir : Option String) (path : String) : List Path.Component :=
  if Path.isAbsolute path then Path.normalize (Path.components path)
  else Path.normalize (Path.components (Path.join (currentDir.getD ".") path))

/-- `ensure_child_path`. -/
def ensureChildPath (currentDir : Option String) (root path : String) : Except StorageError Unit :=
  if absolutizeForCheck currentDir root <+: absolutizeForCheck currentDir path then .ok ()
  else .error (.unsafePath path)

/-- What `safe_file_stem` makes of a character. -/
def stemChar (c : Char) : Option Char :=
  if ('a' ≤ c ∧ c ≤ 'z') ∨ ('A' ≤ c ∧ c ≤ 'Z') ∨ ('0' ≤ c ∧ c ≤ '9') ∨ c = '_' ∨ c = '-' then some c
  else if c = '.' then some '_'
  else none

def safeFileStem (host : Host) (value : String) : String :=
  let sanitized := String.ofList ((value.toList.filterMap stemChar).take 80)
  if sanitized = "" ∨ sanitized = "." ∨ sanitized = ".." ∨ containsText value "/" ∨ containsText value "\\" ∨
      containsText value ".." then
    "tool_" ++ String.ofList ((host.sha256Hex (Host.utf8 value)).toList.take 16)
  else sanitized

def resultPath (host : Host) (storageDir toolCallId : String) : String :=
  Path.join storageDir (safeFileStem host toolCallId ++ ".txt")

def stableResultPath (host : Host) (currentDir : Option String) (storageDir toolCallId : String) :
    Except StorageError String :=
  (ensureChildPath currentDir storageDir (resultPath host storageDir toolCallId)).map
    (fun _ => resultPath host storageDir toolCallId)

/-- `write_result_file`. -/
def writeResultFile (disk : Disk) (root path content : String) : Disk × Except StorageError Unit :=
  match ensureChildPath disk.currentDir root path with
  | .error e => (disk, .error e)
  | .ok () => disk.write path content

/-- The characters that fit into a number of bytes. -/
def takeBytes : Nat → List Char → List Char
  | _, [] => []
  | max, c :: rest => if c.utf8Size ≤ max then c :: takeBytes (max - c.utf8Size) rest else []

def byteLen (text : List Char) : Nat := (String.ofList text).utf8ByteSize

/-- `generate_preview`: cut at a character, and after the last line break if that is past
the middle. -/
def generatePreview (content : String) (maxBytes : Nat) : String × Bool :=
  if content.utf8ByteSize ≤ maxBytes then (content, false)
  else
    let truncated := takeBytes maxBytes content.toList
    let lines := (truncated.reverse.dropWhile (fun c => decide (c ≠ '\n'))).reverse
    if lines ≠ [] ∧ byteLen truncated / 2 < byteLen lines - 1 then (String.ofList lines, true)
    else (String.ofList truncated, true)

/-- `format!("{:.1}", size / unit)`: tenths, a half to the even neighbour. Exact for sizes an
`f64` holds, which no text in memory exceeds. -/
def oneDecimal (size unit : Nat) : String :=
  let whole := size * 10 / unit
  let rest := size * 10 % unit
  let tenths := if unit < 2 * rest ∨ (2 * rest = unit ∧ whole % 2 = 1) then whole + 1 else whole
  toString (tenths / 10) ++ "." ++ toString (tenths % 10)

def sizeLabel (size : Nat) : String :=
  if 1048576 ≤ size then oneDecimal size 1048576 ++ " MB" else oneDecimal size 1024 ++ " KB"

/-- `build_persisted_message`. -/
def buildPersistedMessage (preview : String) (hasMore : Bool) (originalSize : Nat) (filePath : String) : String :=
  persistedOutputTag ++ "\nThis tool result was too large (" ++ toString originalSize ++ " bytes, " ++
    sizeLabel originalSize ++ ").\nFull output saved to: " ++ filePath ++
    "\nUse fs_read/read_file with offset and limit to inspect specific sections.\n\nPreview (first " ++
    toString preview.utf8ByteSize ++ " bytes):\n" ++ preview ++ (if hasMore then "\n..." else "") ++ "\n" ++
    persistedOutputClosingTag

section

variable (host : Host)

def maybeStoreToolResultWithTarget (content toolName toolCallId : String) (thresholdBytes : Nat)
    (config : ToolResultBudgetConfig) (target : HostToolResultStorageTarget) (disk : Disk) :
    Disk × Except StorageError StoredToolResult :=
  let bytes := content.utf8ByteSize
  let (preview, hasMore) := generatePreview content config.previewBytes
  let metadata (truncated stored : Bool) (path : Option String) : ToolResultMetadata :=
    ⟨toolName, toolCallId, bytes, preview.utf8ByteSize, truncated, stored, path, target.environmentId,
      target.environmentKind, preview⟩
  if bytes ≤ thresholdBytes then (disk, .ok ⟨content, metadata false false none⟩)
  else
    match stableResultPath host disk.currentDir target.root toolCallId with
    | .error e => (disk, .error e)
    | .ok path =>
      match ensureChildPath disk.currentDir target.root path with
      | .error e => (disk, .error e)
      | .ok () =>
        match writeResultFile disk target.root path content with
        | (disk, .error e) => (disk, .error e)
        | (disk, .ok ()) =>
          (disk, .ok ⟨buildPersistedMessage preview hasMore bytes path, metadata hasMore true (some path)⟩)

def maybeStoreToolResultWithThreshold (content toolName toolCallId : String) (thresholdBytes : Nat)
    (config : ToolResultBudgetConfig) (disk : Disk) : Disk × Except StorageError StoredToolResult :=
  maybeStoreToolResultWithTarget host content toolName toolCallId thresholdBytes config
    (.new config.storageDir) disk

def maybeStoreToolResult (content toolName toolCallId : String) (config : ToolResultBudgetConfig) (disk : Disk) :
    Disk × Except StorageError StoredToolResult :=
  maybeStoreToolResultWithThreshold host content toolName toolCallId config.resultBudgetBytes config disk

def totalSize (messages : List ToolResultMessage) : Nat :=
  messages.foldl (fun total message => total + message.content.utf8ByteSize) 0

/-- The messages not stored yet, largest first, by their position and size. -/
def budgetCandidates (messages : List ToolResultMessage) : List (Nat × Nat) :=
  ((messages.zipIdx.filter (fun entry => !entry.1.alreadyStored && decide (entry.1.content ≠ ""))).map
    (fun entry => (entry.2, entry.1.content.utf8ByteSize))).mergeSort (fun a b => decide (b.2 ≤ a.2))

/-- The loop of `enforce_turn_budget_with_target`. A failed write ends it with the messages
as far as they were replaced; a candidate's position is always inside the slice. -/
def spillCandidates (config : ToolResultBudgetConfig) (target : HostToolResultStorageTarget) :
    List (Nat × Nat) → Nat → Disk → List ToolResultMessage → Disk × List ToolResultMessage × Except StorageError Unit
  | [], _, disk, messages => (disk, messages, .ok ())
  | (i, originalSize) :: candidates, total, disk, messages =>
    if total ≤ config.turnBudgetBytes then (disk, messages, .ok ())
    else
      match messages[i]? with
      | none => (disk, messages, .ok ())
      | some message =>
        match maybeStoreToolResultWithTarget host message.content message.toolName message.toolCallId 0 config
            target disk with
        | (disk, .error e) => (disk, messages, .error e)
        | (disk, .ok stored) =>
          spillCandidates config target candidates
            (total - originalSize + stored.injectableContent.utf8ByteSize) disk
            (messages.set i { message with
              content := stored.injectableContent
              metadata := some stored.metadata })

def enforceTurnBudgetWithTarget (messages : List ToolResultMessage) (config : ToolResultBudgetConfig)
    (target : HostToolResultStorageTarget) (disk : Disk) :
    Disk × List ToolResultMessage × Except StorageError Unit :=
  if totalSize messages ≤ config.turnBudgetBytes then (disk, messages, .ok ())
  else spillCandidates host config target (budgetCandidates messages) (totalSize messages) disk messages

def enforceTurnBudget (messages : List ToolResultMessage) (config : ToolResultBudgetConfig) (disk : Disk) :
    Disk × List ToolResultMessage × Except StorageError Unit :=
  enforceTurnBudgetWithTarget host messages config (.new config.storageDir) disk

/-- The first loop of `on_tool_results_with_budget`. -/
def storeToolResults (config : ToolResultBudgetConfig) :
    List ToolResult → Disk → Disk × Except StorageError (List ToolResultMessage)
  | [], disk => (disk, .ok [])
  | result :: results, disk =>
    match maybeStoreToolResult host result.output result.toolName result.toolCallId config disk with
    | (disk, .error e) => (disk, .error e)
    | (disk, .ok stored) =>
      match storeToolResults config results disk with
      | (disk, .error e) => (disk, .error e)
      | (disk, .ok messages) =>
        (disk, .ok (⟨result.toolName, result.toolCallId, stored.injectableContent, some stored.metadata⟩ :: messages))

/-- What `on_tool_results_with_budget` hands on to `on_tool_results`. -/
def budgetToolResults (results : List ToolResult) (config : ToolResultBudgetConfig) (disk : Disk) :
    Disk × Except StorageError (List ToolResult) :=
  match storeToolResults host config results disk with
  | (disk, .error e) => (disk, .error e)
  | (disk, .ok messages) =>
    match enforceTurnBudget host messages config disk with
    | (disk, _, .error e) => (disk, .error e)
    | (disk, messages, .ok ()) =>
      (disk, .ok ((messages.zip (results.map ToolResult.success)).map
        (fun entry => ⟨entry.1.toolCallId, entry.1.toolName, entry.1.content, entry.2⟩)))

end

end Zaion.Agent
