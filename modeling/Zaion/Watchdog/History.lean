import Zaion.Host
import Zaion.Lib.Hex
import Zaion.Lib.Text

/-! The watchdog's record of a repair, signed when it is made. A slice of a text at an index
inside a character panics: `none`. -/
namespace Zaion.Watchdog

open Lib

inductive RepairResult where
  | success
  | failure
  | manualRequired
  deriving DecidableEq, Repr

def RepairResult.asStr : RepairResult → String
  | .success => "success"
  | .failure => "failure"
  | .manualRequired => "manual_required"

inductive HealFixType where
  | fileContent
  | description
  | unknown
  deriving DecidableEq, Repr

def HealFixType.asStr : HealFixType → String
  | .fileContent => "file_content"
  | .description => "description"
  | .unknown => "unknown"

/-- The path as it is displayed. -/
structure HealPlan where
  fixType : HealFixType
  filePath : Option String
  content : String
  deriving DecidableEq, Repr

/-- What of a crash report a repair looks at. -/
structure CrashReport where
  stackTrace : String
  deriving DecidableEq, Repr

structure RepairEntry where
  id : Option Int
  timestamp : String
  crashSummary : String
  fixType : String
  fixContent : String
  filePath : Option String
  result : RepairResult
  newPid : Option Nat
  principalId : String
  signatureHex : String
  deriving DecidableEq, Repr

inductive WatchdogError where
  | invalidSignatureHex
  | signatureLength
  | signatureVerificationFailed
  | resurrectFailed (text : String)
  | io
  | sqlite
  deriving DecidableEq, Repr

/-- `&text[..text.len().min(limit)]`. -/
def startOf (limit : Nat) (text : String) : Option String :=
  (firstBytes (min text.utf8ByteSize limit) text.toList).map String.ofList

namespace RepairEntry

def canonicalMsg (timestamp crashSummary fixType fixContent filePath result principalId : String) : String :=
  timestamp ++ "|" ++ crashSummary ++ "|" ++ fixType ++ "|" ++ fixContent ++ "|" ++ filePath ++ "|" ++ result ++ "|" ++
    principalId

/-- What is signed of an entry. -/
def message (entry : RepairEntry) : String :=
  canonicalMsg entry.timestamp entry.crashSummary entry.fixType entry.fixContent (entry.filePath.getD "")
    entry.result.asStr entry.principalId

/-- `RepairEntry::new` at a reading of the clock. -/
def new (host : Host) (keypair : Keypair) (timestamp : String) (crashReport : CrashReport) (healPlan : HealPlan)
    (result : RepairResult) (newPid : Option Nat) : Option RepairEntry := do
  let crashSummary ← startOf 500 crashReport.stackTrace
  let entry : RepairEntry := ⟨none, timestamp, crashSummary, healPlan.fixType.asStr, healPlan.content, healPlan.filePath,
    result, newPid, host.principalOf keypair.publicKey, ""⟩
  some { entry with signatureHex := hexEncode (host.sign keypair (Host.utf8 entry.message)) }

def verify (host : Host) (keypair : Keypair) (entry : RepairEntry) : Except WatchdogError Unit :=
  match hexDecode entry.signatureHex with
  | none => .error .invalidSignatureHex
  | some signature =>
    if signature.length ≠ 64 then .error .signatureLength
    else if host.verifySignature keypair.publicKey (Host.utf8 entry.message) signature then .ok ()
    else .error .signatureVerificationFailed

end RepairEntry

end Zaion.Watchdog
