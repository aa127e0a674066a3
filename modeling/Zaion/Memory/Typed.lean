import Zaion.Lib.Hex
import Zaion.Lib.Steps
import Zaion.Sample

/-! `TypedMemoryStore`: memories signed when they are made, and columns of them updated in
place. A confidence is an `f32` seen through its constant, its clamp and its printed form. -/
namespace Zaion.Memory

open Lib

inductive MemoryType where
  | user
  | feedback
  | project
  | reference
  deriving DecidableEq, Repr

def MemoryType.asStr : MemoryType → String
  | .user => "user"
  | .feedback => "feedback"
  | .project => "project"
  | .reference => "reference"

def MemoryType.fromStr (s : String) : Option MemoryType :=
  if s = "user" then some .user
  else if s = "feedback" then some .feedback
  else if s = "project" then some .project
  else if s = "reference" then some .reference
  else none

@[simp] theorem MemoryType.fromStr_asStr (memoryType : MemoryType) : fromStr memoryType.asStr = some memoryType := by
  cases memoryType <;> decide

/-- What the store does with an `f32`. -/
structure FloatOps (F : Type) where
  one : F
  /-- `clamp(0.0, 1.0)`. -/
  clamp : F → F
  isNan : F → Bool
  /-- `{:.3}`. -/
  print : F → String

structure TypedMemoryEntry (F : Type) where
  id : Option Int
  memoryType : MemoryType
  key : String
  content : String
  principalId : String
  sessionId : String
  createdAt : String
  invalidatedAt : Option String
  confidence : F
  source : String
  signatureHex : String
  deriving DecidableEq, Repr

inductive MemoryError where
  | invalidSignatureHex
  | signatureVerificationFailed
  /-- A `NaN` is bound as `NULL`, which no `REAL NOT NULL` column takes. -/
  | notNull
  deriving DecidableEq, Repr

section

variable {F : Type} (host : Host) (float : FloatOps F) (keypair : Keypair)

def canonicalMsg (memoryType key content principalId sessionId createdAt : String) (confidence : F) (source : String) :
    String :=
  memoryType ++ "|" ++ key ++ "|" ++ content ++ "|" ++ principalId ++ "|" ++ sessionId ++ "|" ++ createdAt ++ "|" ++
    float.print confidence ++ "|" ++ source

/-- `TypedMemoryEntry::new` at a reading of the clock. -/
def TypedMemoryEntry.new (memoryType : MemoryType) (key content sessionId source createdAt : String) :
    TypedMemoryEntry F :=
  let principalId := host.principalOf keypair.publicKey
  let msg := canonicalMsg float memoryType.asStr key content principalId sessionId createdAt float.one source
  ⟨none, memoryType, key, content, principalId, sessionId, createdAt, none, float.one, source,
    hexEncode (host.sign keypair (Host.utf8 msg))⟩

def TypedMemoryEntry.verify (entry : TypedMemoryEntry F) : Except MemoryError Unit :=
  let msg := canonicalMsg float entry.memoryType.asStr entry.key entry.content entry.principalId entry.sessionId
    entry.createdAt entry.confidence entry.source
  match hexDecode entry.signatureHex with
  | none => .error .invalidSignatureHex
  | some signature =>
    if host.verifySignature keypair.publicKey (Host.utf8 msg) signature then .ok ()
    else .error .signatureVerificationFailed

end

/-- A row of `typed_memory`. -/
structure MemoryRow (F : Type) where
  id : Int
  memoryType : String
  key : String
  content : String
  principalId : String
  sessionId : String
  createdAt : String
  invalidatedAt : Option String
  confidence : F
  source : String
  signatureHex : String
  deriving DecidableEq, Repr

abbrev MemoryTable (F : Type) := List (MemoryRow F)

section

variable {F : Type}

/-- `WHERE principal_id=? AND memory_type=? AND key=?`, the columns that are unique together. -/
def MemoryRow.at (principalId : String) (memoryType : MemoryType) (key : String) (row : MemoryRow F) : Bool :=
  decide (row.principalId = principalId) && decide (row.memoryType = memoryType.asStr) && decide (row.key = key)

def rowToEntry (row : MemoryRow F) : TypedMemoryEntry F :=
  ⟨some row.id, (MemoryType.fromStr row.memoryType).getD .reference, row.key, row.content, row.principalId, row.sessionId,
    row.createdAt, row.invalidatedAt, row.confidence, row.source, row.signatureHex⟩

/-- The row an entry makes under an id of the engine's. -/
def entryToRow (id : Int) (entry : TypedMemoryEntry F) : MemoryRow F :=
  ⟨id, entry.memoryType.asStr, entry.key, entry.content, entry.principalId, entry.sessionId, entry.createdAt,
    entry.invalidatedAt, entry.confidence, entry.source, entry.signatureHex⟩

/-- The columns of `ON CONFLICT .. DO UPDATE SET`. -/
def MemoryRow.overwrite (entry : TypedMemoryEntry F) (row : MemoryRow F) : MemoryRow F :=
  { row with
    content := entry.content
    sessionId := entry.sessionId
    createdAt := entry.createdAt
    invalidatedAt := entry.invalidatedAt
    confidence := entry.confidence
    source := entry.source
    signatureHex := entry.signatureHex }

/-- `UPDATE .. WHERE`. -/
def updateWhere (at_ : MemoryRow F → Bool) (set : MemoryRow F → MemoryRow F) (table : MemoryTable F) : MemoryTable F :=
  table.map (fun row => if at_ row then set row else row)

/-- The table and the last inserted id of the connection, which is 0 where nothing was
inserted. `rowid` is the id the engine has for a new row. -/
def upsert (float : FloatOps F) (table : MemoryTable F) (entry : TypedMemoryEntry F) (rowid : Int) :
    Except MemoryError (MemoryTable F × Int) :=
  if float.isNan entry.confidence then .error .notNull
  else if table.any (MemoryRow.at entry.principalId entry.memoryType entry.key) then
    .ok (updateWhere (MemoryRow.at entry.principalId entry.memoryType entry.key) (MemoryRow.overwrite entry) table, 0)
  else .ok (table ++ [entryToRow rowid entry], rowid)

def get (table : MemoryTable F) (principalId : String) (memoryType : MemoryType) (key : String) :
    Option (TypedMemoryEntry F) :=
  (table.find? (MemoryRow.at principalId memoryType key)).map rowToEntry

/-- `ORDER BY created_at DESC`. -/
def list (table : MemoryTable F) (principalId : String) (memoryType : MemoryType) (includeInvalidated : Bool) :
    List (TypedMemoryEntry F) :=
  let selected := table.filter (fun row => decide (row.principalId = principalId) &&
    decide (row.memoryType = memoryType.asStr) && (includeInvalidated || row.invalidatedAt.isNone))
  (selected.mergeSort (fun a b => decide (b.createdAt ≤ a.createdAt))).map rowToEntry

/-- `ORDER BY memory_type, created_at DESC`. -/
def listAll (table : MemoryTable F) (principalId : String) (includeInvalidated : Bool) : List (TypedMemoryEntry F) :=
  let selected := table.filter (fun row => decide (row.principalId = principalId) &&
    (includeInvalidated || row.invalidatedAt.isNone))
  (selected.mergeSort (fun a b => decide (a.memoryType < b.memoryType) ||
    (decide (a.memoryType = b.memoryType) && decide (b.createdAt ≤ a.createdAt)))).map rowToEntry

def invalidate (table : MemoryTable F) (principalId : String) (memoryType : MemoryType) (key now : String) :
    MemoryTable F :=
  updateWhere (MemoryRow.at principalId memoryType key) (fun row => { row with invalidatedAt := some now }) table

def delete (table : MemoryTable F) (principalId : String) (memoryType : MemoryType) (key : String) : MemoryTable F :=
  table.filter (fun row => !row.at principalId memoryType key)

/-- The table and the number of rows removed. -/
def clearType (table : MemoryTable F) (principalId : String) (memoryType : MemoryType) : MemoryTable F × Nat :=
  let cleared (row : MemoryRow F) := decide (row.principalId = principalId) && decide (row.memoryType = memoryType.asStr)
  (table.filter (fun row => !cleared row), table.countP cleared)

def clearAll (table : MemoryTable F) (principalId : String) : MemoryTable F × Nat :=
  (table.filter (fun row => !decide (row.principalId = principalId)), table.countP (fun row => row.principalId = principalId))

def updateConfidence (float : FloatOps F) (table : MemoryTable F) (principalId : String) (memoryType : MemoryType)
    (key : String) (confidence : F) : Except MemoryError (MemoryTable F) :=
  let clamped := float.clamp confidence
  if float.isNan clamped && table.any (MemoryRow.at principalId memoryType key) then .error .notNull
  else .ok (updateWhere (MemoryRow.at principalId memoryType key) (fun row => { row with confidence := clamped }) table)

end

/-- The operations that write; a memory is made by `TypedMemoryEntry::new` as it is stored. -/
inductive MemoryOp (F : Type) where
  | upsert (memoryType : MemoryType) (key content sessionId source createdAt : String) (rowid : Int)
  | invalidate (principalId : String) (memoryType : MemoryType) (key now : String)
  | updateConfidence (principalId : String) (memoryType : MemoryType) (key : String) (confidence : F)
  | delete (principalId : String) (memoryType : MemoryType) (key : String)
  | clearType (principalId : String) (memoryType : MemoryType)
  | clearAll (principalId : String)
  deriving DecidableEq, Repr

section

variable {F : Type} (host : Host) (float : FloatOps F) (keypair : Keypair)

/-- The table after an operation; a statement that fails leaves it as it was. -/
def perform (table : MemoryTable F) : MemoryOp F → MemoryTable F
  | .upsert memoryType key content sessionId source createdAt rowid =>
    match upsert float table (.new host float keypair memoryType key content sessionId source createdAt) rowid with
    | .ok (next, _) => next
    | .error _ => table
  | .invalidate principalId memoryType key now => invalidate table principalId memoryType key now
  | .updateConfidence principalId memoryType key confidence =>
    match updateConfidence float table principalId memoryType key confidence with
    | .ok next => next
    | .error _ => table
  | .delete principalId memoryType key => delete table principalId memoryType key
  | .clearType principalId memoryType => (clearType table principalId memoryType).1
  | .clearAll principalId => (clearAll table principalId).1

def memoryStep (table : MemoryTable F) (op : MemoryOp F) : Option (MemoryTable F) :=
  some (perform host float keypair table op)

/-- Whatever is read verifies. -/
structure ReadsVerify (table : MemoryTable F) : Prop where
  get : ∀ principalId memoryType key entry, Memory.get table principalId memoryType key = some entry →
    entry.verify host float keypair = .ok ()
  list : ∀ principalId memoryType includeInvalidated, ∀ entry ∈ Memory.list table principalId memoryType includeInvalidated,
    entry.verify host float keypair = .ok ()
  listAll : ∀ principalId includeInvalidated, ∀ entry ∈ Memory.listAll table principalId includeInvalidated,
    entry.verify host float keypair = .ok ()

/-- Every row verifies as it is read. -/
def RowsVerify (table : MemoryTable F) : Prop := ∀ row ∈ table, (rowToEntry row).verify host float keypair = .ok ()

/-- A new confidence for a row is printed as the old one is, if it is a number at all. -/
def PrintsAlike (table : MemoryTable F) : MemoryOp F → Prop
  | .updateConfidence principalId memoryType key confidence =>
    float.isNan (float.clamp confidence) = false → ∀ row ∈ table, row.at principalId memoryType key = true →
      float.print (float.clamp confidence) = float.print row.confidence
  | _ => True

end

section

variable {F : Type} {host : Host} {float : FloatOps F} {keypair : Keypair} {table : MemoryTable F}

theorem RowsVerify.reads (rows : RowsVerify host float keypair table) : ReadsVerify host float keypair table where
  get := by
    intro principalId memoryType key entry found
    obtain ⟨row, first, rfl⟩ := Option.map_eq_some_iff.mp found
    exact rows row (List.mem_of_find?_eq_some first)
  list := by
    intro principalId memoryType includeInvalidated entry member
    obtain ⟨row, selected, rfl⟩ := List.mem_map.mp member
    exact rows row (List.mem_filter.mp (List.mem_mergeSort.mp selected)).1
  listAll := by
    intro principalId includeInvalidated entry member
    obtain ⟨row, selected, rfl⟩ := List.mem_map.mp member
    exact rows row (List.mem_filter.mp (List.mem_mergeSort.mp selected)).1

/-- What is signed verifies, whatever id it is read with. -/
theorem verify_new (correct : host.SignsFor keypair) (id : Option Int) (memoryType : MemoryType)
    (key content sessionId source createdAt : String) :
    ({ TypedMemoryEntry.new host float keypair memoryType key content sessionId source createdAt with id := id } :
      TypedMemoryEntry F).verify host float keypair = .ok () := by
  simp only [TypedMemoryEntry.new,TypedMemoryEntry.verify,hexDecode_hexEncode]
  exact if_pos (correct _)

/-- What is signed does not verify with another confidence, where the signature tells the two texts apart. -/
theorem verify_lowered (id : Option Int) (memoryType : MemoryType) (key content sessionId source createdAt : String)
    (confidence : F) (apart : host.verifySignature keypair.publicKey
      (Host.utf8 (canonicalMsg float memoryType.asStr key content (host.principalOf keypair.publicKey) sessionId createdAt
        confidence source))
      (host.sign keypair (Host.utf8 (canonicalMsg float memoryType.asStr key content
        (host.principalOf keypair.publicKey) sessionId createdAt float.one source))) = false) :
    ({ TypedMemoryEntry.new host float keypair memoryType key content sessionId source createdAt with
        id := id, confidence := confidence } : TypedMemoryEntry F).verify host float keypair =
      .error .signatureVerificationFailed := by
  simp only [TypedMemoryEntry.new,TypedMemoryEntry.verify,hexDecode_hexEncode,apart]
  rfl

theorem verify_confidence (entry : TypedMemoryEntry F) {confidence : F}
    (alike : float.print confidence = float.print entry.confidence) :
    ({ entry with confidence := confidence } : TypedMemoryEntry F).verify host float keypair =
      entry.verify host float keypair := by
  have same : canonicalMsg float entry.memoryType.asStr entry.key entry.content entry.principalId entry.sessionId
      entry.createdAt confidence entry.source = canonicalMsg float entry.memoryType.asStr entry.key entry.content
        entry.principalId entry.sessionId entry.createdAt entry.confidence entry.source := by
    unfold canonicalMsg
    rw [alike]
  simp only [TypedMemoryEntry.verify,same]

/-- A row keeps verifying when the columns that are signed print as before. -/
theorem RowsVerify.updateWhere (rows : RowsVerify host float keypair table) {at_ : MemoryRow F → Bool}
    {set : MemoryRow F → MemoryRow F}
    (new : ∀ row ∈ table, at_ row → (rowToEntry (set row)).verify host float keypair = .ok ()) :
    RowsVerify host float keypair (updateWhere at_ set table) := by
  intro row member
  obtain ⟨old, inside, rfl⟩ := List.mem_map.mp member
  by_cases chosen : at_ old = true
  · rw [if_pos chosen]
    exact new old inside chosen
  · rw [if_neg chosen]
    exact rows old inside

theorem RowsVerify.filter (rows : RowsVerify host float keypair table) (kept : MemoryRow F → Bool) :
    RowsVerify host float keypair (table.filter kept) :=
  fun row member => rows row (List.mem_filter.mp member).1

theorem rowToEntry_entryToRow (id : Int) (entry : TypedMemoryEntry F) :
    rowToEntry (entryToRow id entry) = { entry with id := some id } := by
  simp [rowToEntry,entryToRow]

theorem rowToEntry_overwrite {entry : TypedMemoryEntry F} {row : MemoryRow F}
    (chosen : row.at entry.principalId entry.memoryType entry.key) :
    rowToEntry (row.overwrite entry) = { entry with id := some row.id } := by
  simp only [MemoryRow.at,Bool.and_eq_true,decide_eq_true_eq] at chosen
  obtain ⟨⟨principal, type⟩, key⟩ := chosen
  simp [rowToEntry,MemoryRow.overwrite,principal,type,key]

theorem RowsVerify.upsert (rows : RowsVerify host float keypair table) {entry : TypedMemoryEntry F} {rowid last : Int}
    {next : MemoryTable F} (signed : ∀ id, ({ entry with id := id } : TypedMemoryEntry F).verify host float keypair = .ok ())
    (stored : upsert float table entry rowid = .ok (next, last)) : RowsVerify host float keypair next := by
  unfold Memory.upsert at stored
  split at stored
  · cases stored
  split at stored
  · cases stored
    refine rows.updateWhere ?_
    intro row _ chosen
    rw [rowToEntry_overwrite chosen]
    exact signed _
  · cases stored
    intro row member
    rcases List.mem_append.mp member with old | new
    · exact rows row old
    · obtain rfl := List.mem_singleton.mp new
      rw [rowToEntry_entryToRow]
      exact signed _

theorem RowsVerify.updateConfidence (rows : RowsVerify host float keypair table) {principalId key : String}
    {memoryType : MemoryType} {confidence : F} {next : MemoryTable F}
    (alike : PrintsAlike float table (.updateConfidence principalId memoryType key confidence))
    (stored : updateConfidence float table principalId memoryType key confidence = .ok next) :
    RowsVerify host float keypair next := by
  unfold Memory.updateConfidence at stored
  simp only at stored
  split at stored
  · cases stored
  · rename_i number
    cases stored
    refine rows.updateWhere ?_
    intro row member chosen
    have some_ : table.any (MemoryRow.at principalId memoryType key) = true := List.any_eq_true.mpr ⟨row, member, chosen⟩
    rw [some_,Bool.and_true,Bool.not_eq_true] at number
    exact (verify_confidence (rowToEntry row) (alike number row member chosen)).trans (rows row member)

/-- One operation. -/
theorem RowsVerify.perform (rows : RowsVerify host float keypair table) (correct : host.SignsFor keypair)
    {op : MemoryOp F} (alike : PrintsAlike float table op) :
    RowsVerify host float keypair (perform host float keypair table op) := by
  cases op with
  | upsert memoryType key content sessionId source createdAt rowid =>
    simp only [Memory.perform]
    split
    · rename_i next last stored
      exact rows.upsert (fun id => verify_new correct id memoryType key content sessionId source createdAt) stored
    · exact rows
  | invalidate principalId memoryType key now =>
    refine rows.updateWhere ?_
    intro row member _
    exact rows row member
  | updateConfidence principalId memoryType key confidence =>
    simp only [Memory.perform]
    split
    · rename_i next stored
      exact rows.updateConfidence alike stored
    · exact rows
  | delete principalId memoryType key => exact rows.filter _
  | clearType principalId memoryType => exact rows.filter _
  | clearAll principalId => exact rows.filter _

/-- In every run in which a new confidence prints as the one it replaces, all that is ever
read verifies. -/
theorem memories_verify (correct : host.SignsFor keypair) {ops : List (MemoryOp F)}
    (alike : Meets (memoryStep host float keypair) [] (PrintsAlike float) ops) :
    ∀ table, Visits (memoryStep host float keypair) [] ops table → ReadsVerify host float keypair table := by
  intro table visited
  have first : RowsVerify host float keypair ([] : MemoryTable F) := fun _ member => nomatch member
  refine (alike.visited first ?_ table visited).reads
  intro s op s' rows here taken
  obtain rfl := Option.some.inj taken
  exact rows.perform correct here

end

/-- Confidences in thousandths. -/
def thousandths : FloatOps Nat where
  one := 1000
  clamp := fun n => min n 1000
  isNan := fun _ => false
  print := fun n => toString (n / 1000) ++ "." ++ toString (n / 100 % 10) ++ toString (n / 10 % 10) ++ toString (n % 10)

instance (table : MemoryTable Nat) (op : MemoryOp Nat) : Decidable (PrintsAlike thousandths table op) :=
  match op with
  | .updateConfidence .. => inferInstanceAs (Decidable (_ → _))
  | .upsert .. | .invalidate .. | .delete .. | .clearType .. | .clearAll .. => inferInstanceAs (Decidable True)

def memoryKeypair : Keypair := ⟨[7], [7]⟩

/-- A memory is made and marked invalid; its confidence stays full. -/
def keptRun : List (MemoryOp Nat) := [
  .upsert .user "role" "senior engineer" "session-1" "conversation-1" "2026-01-01T00:00:00+00:00" 1,
  .updateConfidence "zaion107" .user "role" 1200,
  .invalidate "zaion107" .user "role" "2026-01-02T00:00:00+00:00"]

theorem keptRun_verifies : ∃ table, steps (memoryStep sampleHost thousandths memoryKeypair) [] keptRun = some table ∧
    (get table "zaion107" .user "role").isSome = true ∧ ReadsVerify sampleHost thousandths memoryKeypair table := by
  have alike : Meets (memoryStep sampleHost thousandths memoryKeypair) [] (PrintsAlike thousandths) keptRun :=
    meets_of_check (by decide)
  refine ⟨_, rfl, by decide, ?_⟩
  exact memories_verify (fun _ => decide_eq_true rfl) alike _ (visits_last rfl)

/-- The memory is trusted by half. -/
def loweredRun : List (MemoryOp Nat) := [
  .upsert .user "role" "senior engineer" "session-1" "conversation-1" "2026-01-01T00:00:00+00:00" 1,
  .updateConfidence "zaion107" .user "role" 500]

/-- Its signature, over full confidence, no longer verifies. -/
theorem loweredRun_unverifiable : sampleHost.SignsFor memoryKeypair ∧ ∃ table entry,
    steps (memoryStep sampleHost thousandths memoryKeypair) [] loweredRun = some table ∧
      get table (sampleHost.principalOf memoryKeypair.publicKey) .user "role" = some entry ∧
        entry.verify sampleHost thousandths memoryKeypair = .error .signatureVerificationFailed := by
  refine ⟨fun _ => decide_eq_true rfl, _, _, rfl, rfl, ?_⟩
  refine verify_lowered (some 1) .user "role" "senior engineer" "session-1"
    "conversation-1" "2026-01-01T00:00:00+00:00" 500 ?_
  decide +kernel

end Zaion.Memory
