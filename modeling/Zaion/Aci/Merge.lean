import Zaion.Aci.Gate
import Zaion.Tools.Files

/-! Merging of branches by chunks: a source is cut into chunks, a branch is compared with its base chunk by
chunk, and the outcomes of all branches are put together. `short_hash` and the syntax check are
parameters. -/
namespace Zaion.Aci

open Lib
open Tools (lines)

structure AstChunk where
  text : String
  hash : String
  lineStart : Nat
  deriving DecidableEq, Repr

def AstChunk.new (shortHash : String → String) (text : String) (lineStart : Nat) : AstChunk :=
  ⟨text, shortHash text, lineStart⟩

/-! The chunks of a source -/

def topLevelKeywords : List String := ["fn ", "pub fn ", "async fn ", "pub async fn ", "impl ", "pub impl ", "struct ",
  "pub struct ", "enum ", "pub enum ", "type ", "pub type ", "mod ", "pub mod ", "trait ", "pub trait ", "const ",
  "pub const ", "static ", "pub static ", "macro_rules!", "use ", "pub use ", "#["]

def startsBlock (trimmed : String) : Bool := topLevelKeywords.any (startsWithText trimmed)

/-- The depth of brackets is an `i32`. -/
def bracket (depth : Int32) (ch : Char) : Int32 :=
  if ch = '{' ∨ ch = '(' ∨ ch = '[' then depth + 1
  else if ch = '}' ∨ ch = ')' ∨ ch = ']' then depth - 1
  else depth

structure Chunker where
  chunks : List AstChunk
  currentLines : List String
  currentStart : Nat
  depth : Int32

namespace Chunker

variable (shortHash : String → String)

/-- What has been gathered becomes a chunk, unless it is blank. -/
def flushed (state : Chunker) : List AstChunk :=
  let text := "\n".intercalate state.currentLines ++ "\n"
  if trim text = "" then state.chunks else state.chunks ++ [.new shortHash text state.currentStart]

/-- A line that starts a block closes what stands before it. -/
def openBlock (state : Chunker) (lineIdx : Nat) (line : String) : Chunker :=
  let trimmed := trim line
  if state.depth = 0 ∧ state.currentLines ≠ [] ∧ trimmed ≠ "" ∧ startsBlock trimmed = true then
    { state with chunks := state.flushed shortHash, currentLines := [], currentStart := lineIdx }
  else state

def pushLine (state : Chunker) (line : String) : Chunker :=
  { state with currentLines := state.currentLines ++ [line], depth := line.toList.foldl bracket state.depth }

/-- Outside of brackets, a blank line or a new block next closes what has been gathered. -/
def closeBlock (state : Chunker) (lineIdx : Nat) (nextLine : String) : Chunker :=
  if state.depth = 0 ∧ state.currentLines ≠ [] then
    let textSoFar := "\n".intercalate state.currentLines
    if 1 < (trim textSoFar).utf8ByteSize then
      let next := trim nextLine
      if next = "" ∨ startsBlock next = true then
        { state with
          chunks := state.chunks ++ [.new shortHash (textSoFar ++ "\n") state.currentStart]
          currentLines := []
          currentStart := lineIdx + 1 }
      else state
    else state
  else state

/-- The loop over the lines. -/
def run (lineIdx : Nat) : List String → Chunker → Chunker
  | [], state => state
  | line :: rest, state =>
    run (lineIdx + 1) rest
      (closeBlock shortHash ((state.openBlock shortHash lineIdx line).pushLine line) lineIdx (rest.head?.getD ""))

end Chunker

def chunkSource (shortHash : String → String) (source : String) : List AstChunk :=
  if trim source = "" then []
  else
    let state := Chunker.run shortHash 0 (lines source) ⟨[], [], 0, 0⟩
    let chunks := if state.currentLines ≠ [] then state.flushed shortHash else state.chunks
    if chunks = [] then [.new shortHash source 0] else chunks

/-! How a branch differs from its base -/

inductive AstChange where
  | unchanged (chunk : AstChunk)
  | modified (base branch : AstChunk)
  | added (chunk : AstChunk)
  | deleted (chunk : AstChunk)
  deriving DecidableEq, Repr

/-- A change with the positions it is sorted by; `usize::MAX`, past every position, is `none`. -/
structure PlacedChange where
  baseIdx : Option Nat
  branchIdx : Option Nat
  change : AstChange
  deriving DecidableEq, Repr

namespace AstDiff

def positionLe : Option Nat → Option Nat → Bool
  | _, none => true
  | none, some _ => false
  | some i, some j => decide (i ≤ j)

def keyLe (a b : PlacedChange) : Bool :=
  if a.baseIdx = b.baseIdx then positionLe a.branchIdx b.branchIdx else positionLe a.baseIdx b.baseIdx

structure DiffState where
  baseSeen : List Nat
  branchSeen : List Nat
  changes : List PlacedChange

/-- `base_index`: of chunks with one hash the last has been put into the map. -/
def baseIndex (base : List AstChunk) (hash : String) : Option Nat :=
  (base.zipIdx.reverse.find? fun entry => decide (entry.1.hash = hash)).map Prod.snd

/-- Pass 1, for one chunk of the branch. -/
def matchIdentical (base : List AstChunk) (state : DiffState) (entry : AstChunk × Nat) : DiffState :=
  match baseIndex base entry.1.hash with
  | some baseIdx =>
    if baseIdx ∈ state.baseSeen then state
    else ⟨baseIdx :: state.baseSeen, entry.2 :: state.branchSeen,
      state.changes ++ [⟨some baseIdx, some entry.2, .unchanged entry.1⟩]⟩
  | none => state

/-- Pass 2, for one chunk of the base. -/
def matchLeft (branch : List AstChunk) (state : DiffState) (entry : AstChunk × Nat) : DiffState :=
  if entry.2 ∈ state.baseSeen then state
  else
    match branch.zipIdx.find? fun other => decide (other.2 ∉ state.branchSeen) with
    | some other => { state with
        branchSeen := other.2 :: state.branchSeen
        changes := state.changes ++ [⟨some entry.2, some other.2, .modified entry.1 other.1⟩] }
    | none => { state with changes := state.changes ++ [⟨some entry.2, none, .deleted entry.1⟩] }

/-- Pass 3, for one chunk of the branch. -/
def matchNew (state : DiffState) (entry : AstChunk × Nat) : DiffState :=
  if entry.2 ∈ state.branchSeen then state
  else { state with changes := state.changes ++ [⟨none, some entry.2, .added entry.1⟩] }

def passes (base branch : List AstChunk) : DiffState :=
  branch.zipIdx.foldl matchNew (base.zipIdx.foldl (matchLeft branch) (branch.zipIdx.foldl (matchIdentical base) ⟨[], [], []⟩))

def diffChunks (base branch : List AstChunk) : List AstChange :=
  ((passes base branch).changes.mergeSort keyLe).map PlacedChange.change

def diff (shortHash : String → String) (base branch : String) : List AstChange :=
  diffChunks (chunkSource shortHash base) (chunkSource shortHash branch)

end AstDiff

/-! The merge -/

structure ConflictBlock where
  base : AstChunk
  variants : List (String × AstChunk)
  deriving DecidableEq, Repr

structure MergeResult where
  merged : String
  autoResolved : Nat
  conflicts : List ConflictBlock
  syntaxValid : Bool
  deriving DecidableEq, Repr

/-- The hash under which a change is filed. -/
def AstChange.decides : AstChange → Option String
  | .unchanged chunk => some chunk.hash
  | .modified base _ => some base.hash
  | .deleted chunk => some chunk.hash
  | .added _ => none

def AstChange.modification? : AstChange → Option AstChunk
  | .modified _ branch => some branch
  | _ => none

def AstChange.addition? : AstChange → Option AstChunk
  | .added chunk => some chunk
  | _ => none

def AstChange.deletes : AstChange → Bool
  | .deleted _ => true
  | _ => false

def AstChange.keeps : AstChange → Bool
  | .unchanged _ => true
  | _ => false

namespace AstMergeResolver

/-- What becomes of one chunk of the base: its text, or the markers and the conflict. -/
def resolve (totalBranches : Nat) (base : AstChunk) (decisions : List (String × AstChange)) :
    String × Option ConflictBlock :=
  let modifications := decisions.filterMap fun d => d.2.modification?.map (d.1, ·)
  let deletions := (decisions.filter fun d => d.2.deletes).map Prod.fst
  let unchangedCount := decisions.countP fun d => d.2.keeps
  let conflict : String × Option ConflictBlock :=
    ("<<<<<<< base\n" ++ base.text ++ "\n=======\n" ++ (modifications.head?.map fun v => v.2.text).getD "(deleted)" ++
      "\n>>>>>>> conflict\n", some ⟨base, modifications⟩)
  if modifications.length + deletions.length = 0 then (base.text, none)
  else
    match modifications with
    | [] => conflict
    | first :: rest =>
      if deletions = [] ∧ rest = [] then (first.2.text, none)
      else if rest = [] ∧ deletions = [] ∧ unchangedCount + 1 = totalBranches then (first.2.text, none)
      else if (∀ v ∈ first :: rest, v.2.hash = first.2.hash) ∧ deletions = [] then (first.2.text, none)
      else conflict

/-- The additions, each hash once. -/
def dedup (seenHashes : List String) : List AstChunk → List String
  | [] => []
  | chunk :: rest =>
    if chunk.hash ∈ seenHashes then dedup seenHashes rest else chunk.text :: dedup (chunk.hash :: seenHashes) rest

variable (shortHash : String → String) (syntaxCheck : String → String → SyntaxCheckResult)

/-- All changes, each with the branch it comes from. -/
def allChanges (base : String) (branches : List (String × String)) : List (String × AstChange) :=
  branches.flatMap fun branch => (AstDiff.diff shortHash base branch.2).map (branch.1, ·)

/-- `syntaxCheck` is `SyntaxGate::check`, for the language of a name. -/
def merge (base : String) (branches : List (String × String)) (language : String) : MergeResult :=
  let baseChunks := chunkSource shortHash base
  let changes := allChanges shortHash base branches
  let resolved := baseChunks.map fun chunk =>
    resolve branches.length chunk (changes.filter fun d => decide (d.2.decides = some chunk.hash))
  let additions := changes.filterMap fun d => d.2.addition?
  let merged := String.join (resolved.map Prod.fst ++ dedup [] additions)
  let conflicts := resolved.filterMap Prod.snd
  { merged
    autoResolved := resolved.countP fun r => r.2.isNone
    conflicts
    syntaxValid := if conflicts = [] then (syntaxCheck merged language).isValid else false }

end AstMergeResolver

end Zaion.Aci
