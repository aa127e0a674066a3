import Zaion.Host
import Zaion.Lib.Table

/-! `FileOpsGate`: a file is written only past the toxic registry, the reality anchors and
the syntax check. The two databases and the disk are one state; the calls on the disk are a
parameter. -/
namespace Zaion.Aci

open Lib

/-- The calls of `std::fs` and `std::path` made here. One that fails may leave something
behind. -/
structure FileSystem (Disk Path : Type) where
  existsAt : Disk → Path → Bool
  read : Disk → Path → Option (List UInt8)
  createDirAll : Disk → Path → Disk × Bool
  write : Disk → Path → List UInt8 → Disk × Bool
  rename : Disk → Path → Path → Disk × Bool
  parent : Path → Option Path
  withExtension : Path → String → Path
  toStr : Path → Option String
  toStringLossy : Path → String

/-- What is written to a file and moved to a path is what is read there. -/
def FileSystem.Moves {Disk Path : Type} (fs : FileSystem Disk Path) : Prop :=
  ∀ disk tmp path content written moved, fs.write disk tmp content = (written, true) →
    fs.rename written tmp path = (moved, true) → ∀ bytes, fs.read moved path = some bytes → bytes = content

inductive SyntaxLanguage where
  | rust
  | toml
  | json
  | python
  | shell
  | typeScript
  | javaScript
  | unknown
  deriving DecidableEq, Repr

/-- `{:?}`. -/
def SyntaxLanguage.debug : SyntaxLanguage → String
  | .rust => "Rust"
  | .toml => "Toml"
  | .json => "Json"
  | .python => "Python"
  | .shell => "Shell"
  | .typeScript => "TypeScript"
  | .javaScript => "JavaScript"
  | .unknown => "Unknown"

structure SyntaxError where
  line : Option Nat
  col : Option Nat
  message : String
  deriving DecidableEq, Repr

inductive SyntaxCheckResult where
  | valid
  | invalid (errors : List SyntaxError)
  | skipped (reason : String)
  deriving DecidableEq, Repr

inductive AciError where
  | syntaxError (language message : String)
  | realityDiverged (path expected actual : String)
  | toxicBlocked (hash reason : String)
  | io
  | internal
  deriving DecidableEq, Repr

/-- The errors of the three gates. -/
def AciError.ofGate : AciError → Bool
  | .syntaxError .. | .realityDiverged .. | .toxicBlocked .. => true
  | .io | .internal => false

def SyntaxError.describe (e : SyntaxError) : String :=
  match e.line, e.col with
  | some l, some c => "line " ++ toString l ++ ":" ++ toString c ++ ": " ++ e.message
  | _, _ => e.message

def SyntaxCheckResult.isValid : SyntaxCheckResult → Bool
  | .valid | .skipped _ => true
  | .invalid _ => false

def SyntaxCheckResult.toAciError (language : SyntaxLanguage) : SyntaxCheckResult → Option AciError
  | .invalid errors => some (.syntaxError language.debug ("; ".intercalate (errors.map SyntaxError.describe)))
  | _ => none

inductive ToxicReason where
  | infiniteLoop
  | memoryLeak
  | crash
  | securityViolation
  | manual
  deriving DecidableEq, Repr

def ToxicReason.text : ToxicReason → String
  | .infiniteLoop => "infinite_loop"
  | .memoryLeak => "memory_leak"
  | .crash => "crash"
  | .securityViolation => "security_violation"
  | .manual => "manual"

def ToxicReason.ofText (reason : String) : ToxicReason :=
  if reason = "infinite_loop" then .infiniteLoop
  else if reason = "memory_leak" then .memoryLeak
  else if reason = "crash" then .crash
  else if reason = "security_violation" then .securityViolation
  else .manual

/-- A row of `toxic_hashes`. -/
structure ToxicRow where
  hash : String
  sourcePath : Option String
  reason : String
  note : String
  markedAt : String
  deriving DecidableEq, Repr

/-- The columns of `ON CONFLICT(hash) DO UPDATE SET`. -/
def ToxicRow.remark (new row : ToxicRow) : ToxicRow :=
  { row with reason := new.reason, note := new.note, markedAt := new.markedAt }

/-- A row of `reality_anchors`. -/
structure RealityAnchor where
  path : String
  expectedHash : String
  anchoredAt : String
  sourceAgent : Option String
  deriving DecidableEq, Repr

inductive CheckResult where
  | consistent (path hash : String)
  | diverged (path expected actual : String)
  | missing (path : String)
  | noAnchor (path : String)
  deriving DecidableEq, Repr

structure GateState (Disk : Type) where
  disk : Disk
  /-- `none` where the table of the registry was never made. -/
  toxicHashes : Option (List ToxicRow)
  realityAnchors : List RealityAnchor

def getAnchor (anchors : List RealityAnchor) (path : String) : Option RealityAnchor :=
  Table.select RealityAnchor.path path anchors

/-- The columns of `ON CONFLICT(path) DO UPDATE SET`. -/
def RealityAnchor.renew (hash : String) (sourceAgent : Option String) (now : String) (row : RealityAnchor) : RealityAnchor :=
  { row with expectedHash := hash, anchoredAt := now, sourceAgent := sourceAgent }

def setAnchor (anchors : List RealityAnchor) (path hash : String) (sourceAgent : Option String) (now : String) :
    List RealityAnchor :=
  Table.upsert RealityAnchor.path ⟨path, hash, now, sourceAgent⟩ (RealityAnchor.renew hash sourceAgent now) anchors

def GateState.anchor {Disk : Type} (state : GateState Disk) (path hash : String) (sourceAgent : Option String) (now : String) :
    GateState Disk :=
  { state with realityAnchors := setAnchor state.realityAnchors path hash sourceAgent now }

section

variable {Disk Path : Type} (host : Host) (fs : FileSystem Disk Path)

def hashFile (disk : Disk) (path : Path) : Option String := (fs.read disk path).map host.sha256Hex

/-- `RealityChecker::check`, which anchors a file it sees for the first time; `none` where the
file cannot be read. -/
def check (state : GateState Disk) (path : Path) (now : String) : Option (CheckResult × GateState Disk) :=
  let pathStr := fs.toStringLossy path
  if fs.existsAt state.disk path then
    match hashFile host fs state.disk path with
    | none => none
    | some actual =>
      match getAnchor state.realityAnchors pathStr with
      | none => some (.noAnchor pathStr, state.anchor pathStr actual (some "reality-checker") now)
      | some anchor =>
        if anchor.expectedHash = actual then some (.consistent pathStr actual, state)
        else some (.diverged pathStr anchor.expectedHash actual, state)
  else some (.missing pathStr, state)

/-- Gate 1, on the hash the file has now. -/
def toxicGate (state : GateState Disk) (path : Path) : Except AciError Unit :=
  if fs.existsAt state.disk path then
    match hashFile host fs state.disk path, state.toxicHashes with
    | some hash, some rows =>
      if hash ∈ rows.map ToxicRow.hash then .error (.toxicBlocked hash "file is in toxic registry — write blocked")
      else .ok ()
    | _, _ => .error .internal
  else .ok ()

/-- Gate 2. -/
def realityGate (state : GateState Disk) (path : Path) (now : String) : Except AciError (GateState Disk) :=
  if fs.existsAt state.disk path then
    match check host fs state path now with
    | none => .error .internal
    | some (.diverged p expected actual, _) => .error (.realityDiverged p expected actual)
    | some (_, next) => .ok next
  else .ok state

/-- The directories, the temporary file beside the target and the move. -/
def atomicWrite (disk : Disk) (path : Path) (content : List UInt8) : Disk × Bool :=
  let (made, dirs) := (fs.parent path).elim (disk, true) (fs.createDirAll disk)
  if dirs then
    let tmp := fs.withExtension path "_gate_tmp"
    let (written, wrote) := fs.write made tmp content
    if wrote then fs.rename written tmp path else (written, false)
  else (made, false)

variable (syntaxCheck : String → SyntaxLanguage → SyntaxCheckResult)

/-- Gate 3; `syntaxCheck` is `SyntaxGate::check`. -/
def syntaxGate (content : String) (language : SyntaxLanguage) : Except AciError Unit :=
  let result := syntaxCheck content language
  if result.isValid then .ok ()
  else
    match result.toAciError language with
    | some err => .error err
    | none => .ok ()

def safeWrite (state : GateState Disk) (path : Path) (newContent : String) (language : SyntaxLanguage)
    (sourceAgent : Option String) (now : String) : Except AciError Unit × GateState Disk :=
  match toxicGate host fs state path with
  | .error e => (.error e, state)
  | .ok _ =>
    match realityGate host fs state path now with
    | .error e => (.error e, state)
    | .ok checked =>
      match syntaxGate syntaxCheck newContent language with
      | .error e => (.error e, checked)
      | .ok _ =>
        match atomicWrite fs checked.disk path (Host.utf8 newContent) with
        | (disk, false) => (.error .io, { checked with disk := disk })
        | (disk, true) =>
          match hashFile host fs disk path with
          | none => (.error .internal, { checked with disk := disk })
          | some hash => (.ok (), { checked with disk := disk }.anchor (fs.toStringLossy path) hash sourceAgent now)

/-- The hash marked. -/
def markToxic (state : GateState Disk) (path : Path) (reason now : String) : Except AciError String × GateState Disk :=
  match hashFile host fs state.disk path, state.toxicHashes with
  | some hash, some rows =>
    let row : ToxicRow := ⟨hash, fs.toStr path, (ToxicReason.ofText reason).text, reason, now⟩
    (.ok hash, { state with toxicHashes := some (Table.upsert ToxicRow.hash row (ToxicRow.remark row) rows) })
  | _, _ => (.error .internal, state)

end

end Zaion.Aci
