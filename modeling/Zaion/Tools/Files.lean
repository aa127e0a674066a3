import Zaion.Host
import Zaion.Lib.Checked
import Zaion.Lib.Disk
import Zaion.Lib.Match
import Zaion.Lib.Path
import Zaion.Lib.Text

/-! The built-in file tools. A session is the disk and the table of observed states, which is
keyed by canonical path. A reply also says, beside what the tool answers, at which locations
the files stand whose content is in the answer and those that were written. -/
namespace Zaion.Tools

open Lib

/-- What a file holds: a text in UTF-8, or bytes that are none. -/
inductive Content where
  | text (text : String)
  | raw (bytes : List UInt8)
  deriving DecidableEq, Repr

def Content.len : Content → Nat
  | .text t => t.utf8ByteSize
  | .raw b => b.length

/-- `read_to_string`. -/
def Content.toText? : Content → Option String
  | .text t => some t
  | .raw _ => none

/-- Bytes that are no UTF-8 stay so with a text after them. -/
def Content.append (more : String) : Option Content → Content
  | none => .text more
  | some (.text t) => .text (t ++ more)
  | some (.raw b) => .raw (b ++ Host.utf8 more)

structure Session where
  disk : Disk Content
  /-- The content hash last recorded for a canonical path. -/
  readStates : List (Loc × String)
  deriving DecidableEq, Repr

inductive ToolError where
  | noCurrentDirectory
  | absolutePath (path : String)
  | escapesWorkspace (path : String)
  | cannotCanonicalize (path : String)
  | cannotCanonicalizeParent (path : String)
  | invalidPath (path : String)
  | notRegularFile (path : String)
  | tooLarge (path : String) (bytes : Nat)
  | cannotRead (path : String)
  | neverRead (path : String)
  | drifted (path : String)
  | identical
  | notFound (path : String)
  | ambiguous (occurrences : Nat) (path : String)
  | emptyQuery
  | failedWrite
  | failedAppend (path : String)
  | failedDelete
  | failedCopy
  | failedMove
  deriving DecidableEq, Repr

structure SearchHit where
  path : Loc
  line : Nat
  preview : String
  deriving DecidableEq, Repr

inductive Answer where
  | read (content : String) (lines : Nat)
  | readLines (path : String) (start stop totalLines : Nat) (content : String)
  | search (query : String) (results : List SearchHit) (truncated : Bool)
  | written (path : String) (bytes : Nat)
  | edited (path : String) (replacements bytes : Nat)
  | appended (path : String) (bytes : Nat)
  | copied (source destination : String)
  | moved (source destination : String)
  | deleted (path : String)
  deriving DecidableEq, Repr

structure Reply where
  answer : Answer
  /-- Where the files stand whose content is in the answer. -/
  sources : List Loc
  /-- Where the files stand that were written. -/
  written : List Loc
  session : Session
  deriving DecidableEq, Repr

/-- `str::lines`: a line ends with `\n` or `\r\n`. -/
def lines (s : String) : List String :=
  let parts := s.toList.splitOn '\n'
  let stripCr (line : List Char) := if line.getLast? = some '\r' then line.dropLast else line
  let last := if parts.getLast?.getD [] = [] then [] else [parts.getLast?.getD []]
  (parts.dropLast.map stripCr ++ last).map String.ofList

def hopOf : List Char → Hop
  | [] => .here
  | ['.'] => .here
  | ['.', '.'] => .up
  | name => .name (String.ofList name)

/-- A path as the system walks it. -/
def hopsOf (path : String) : List Hop := (path.toList.splitOn '/').map hopOf

/-- `Component::Normal`. -/
def normalName : Hop → Option String
  | .name name => some name
  | _ => none

section

variable (host : Host)

/-- `state_key`. -/
def stateKey (disk : Disk Content) (path : Loc) : Loc := (disk.canonicalize (Disk.spell path)).getD path

def recordFileState (s : Session) (path : Loc) (content : String) : Session :=
  { s with readStates := (stateKey s.disk path, host.sha256Hex (Host.utf8 content)) :: s.readStates }

inductive DriftCheck where
  | fresh
  | neverRead
  | drifted
  deriving DecidableEq, Repr

def checkDrift (s : Session) (path : Loc) (current : String) : DriftCheck :=
  match s.readStates.lookup (stateKey s.disk path) with
  | none => .neverRead
  | some recorded => if host.sha256Hex (Host.utf8 current) = recorded then .fresh else .drifted

/-- The drift check as a refusal. -/
def guardDrift (s : Session) (resolved : Loc) (path current : String) : Except ToolError Unit :=
  match checkDrift host s resolved current with
  | .fresh => .ok ()
  | .neverRead => .error (.neverRead path)
  | .drifted => .error (.drifted path)

end

def workspaceRoot (disk : Disk Content) (cwd : List Hop) : Except ToolError Loc :=
  required (disk.canonicalize cwd) .noCurrentDirectory

/-- The whole path resolved, or its parent with the last name after it. -/
def resolvePath (disk : Disk Content) (root : Loc) (path : String) : Bool → Except ToolError Loc
  | true => required (disk.canonicalize (Disk.spell root ++ hopsOf path)) (.cannotCanonicalize path)
  | false => do
    let joined := root ++ (hopsOf path).filterMap normalName
    let name ← required joined.getLast? (.invalidPath path)
    let parent ← required (disk.canonicalize (Disk.spell joined.dropLast)) (.cannotCanonicalizeParent path)
    pure (parent ++ [name])

def resolveUnderWorkspace (disk : Disk Content) (cwd : List Hop) (path : String) (mustExist : Bool) :
    Except ToolError Loc := do
  let root ← workspaceRoot disk cwd
  ensure (Path.isAbsolute path = false) (.absolutePath path)
  ensure (Hop.up ∉ hopsOf path) (.escapesWorkspace path)
  let resolved ← resolvePath disk root path mustExist
  ensure (root <+: resolved) (.escapesWorkspace path)
  pure resolved

section

variable (host : Host) (cwd : List Hop)

/-- The regular file at a path, of at most 50 KB and in UTF-8. -/
def readSmall (s : Session) (path : String) : Except ToolError (Loc × Loc × String) := do
  let resolved ← resolveUnderWorkspace s.disk cwd path true
  let (loc, content) ← required (s.disk.readFile (Disk.spell resolved)) (.notRegularFile path)
  ensure (content.len ≤ 50 * 1024) (.tooLarge path content.len)
  let text ← required content.toText? (.cannotRead path)
  pure (resolved, loc, text)

def fsRead (s : Session) (path : String) : Except ToolError Reply := do
  let (resolved, loc, content) ← readSmall cwd s path
  pure ⟨.read content (lines content).length, [loc], [], recordFileState host s resolved content⟩

def fsReadLines (s : Session) (path : String) (first last : Option Nat) : Except ToolError Reply := do
  let (resolved, loc, full) ← readSmall cwd s path
  let all := lines full
  let start := max (first.getD 1) 1
  let stop := min (last.getD all.length) all.length
  let content := if start > all.length ∨ start > stop then ""
    else "\n".intercalate ((all.take stop).drop (start - 1))
  pure ⟨.readLines path start stop all.length content, [loc], [], recordFileState host s resolved full⟩

/-- The checks on a file that is there. -/
def guardOverwrite (s : Session) (resolved : Loc) (path : String) : Except ToolError Unit :=
  match s.disk.readFile (Disk.spell resolved) with
  | some (_, old) => do
    let current ← required old.toText? (.cannotRead path)
    guardDrift host s resolved path current
  | none => .ok ()

def fsWrite (s : Session) (path content : String) : Except ToolError Reply := do
  let resolved ← resolveUnderWorkspace s.disk cwd path false
  guardOverwrite host s resolved path
  let (loc, disk) ← required (s.disk.store (Disk.spell resolved) (fun _ => .text content)) .failedWrite
  pure ⟨.written path content.utf8ByteSize, [], [loc], recordFileState host { s with disk := disk } resolved content⟩

def fsEdit (s : Session) (path oldStr newStr : String) (replaceAll : Bool) : Except ToolError Reply := do
  ensure (oldStr ≠ newStr) .identical
  let resolved ← resolveUnderWorkspace s.disk cwd path true
  let (_, content) ← required (s.disk.readFile (Disk.spell resolved)) (.notRegularFile path)
  let current ← required content.toText? (.cannotRead path)
  guardDrift host s resolved path current
  let occurrences := matchCount oldStr.toList current.toList
  ensure (occurrences ≠ 0) (.notFound path)
  ensure (¬ (occurrences > 1 ∧ replaceAll = false)) (.ambiguous occurrences path)
  let updated := String.ofList (if replaceAll then Lib.replaceAll oldStr.toList newStr.toList current.toList
    else replaceFirst oldStr.toList newStr.toList current.toList)
  let (loc, disk) ← required (s.disk.store (Disk.spell resolved) (fun _ => .text updated)) .failedWrite
  pure ⟨.edited path (if replaceAll then occurrences else 1) updated.utf8ByteSize, [], [loc],
    recordFileState host { s with disk := disk } resolved updated⟩

def fsAppend (s : Session) (path content : String) : Except ToolError Reply := do
  let resolved ← resolveUnderWorkspace s.disk cwd path false
  let (loc, disk) ← required (s.disk.store (Disk.spell resolved) (Content.append content)) (.failedAppend path)
  let next : Session := { s with disk := disk }
  let recorded := match disk.readFile (Disk.spell resolved) with
    | some (_, .text full) => recordFileState host next resolved full
    | _ => next
  pure ⟨.appended path content.utf8ByteSize, [], [loc], recorded⟩

/-- What `fs::copy` leaves at the destination: onto itself a file ends up empty. -/
def copyOf (disk : Disk Content) (src dst : Loc) (content : Content) : Content :=
  if disk.resolve (Disk.spell dst) = .found src then .text "" else content

def fsCopy (s : Session) (source destination : String) : Except ToolError Reply := do
  let src ← resolveUnderWorkspace s.disk cwd source true
  let dst ← resolveUnderWorkspace s.disk cwd destination false
  let (loc, content) ← required (s.disk.readFile (Disk.spell src)) .failedCopy
  let (target, disk) ← required (s.disk.store (Disk.spell dst) (fun _ => copyOf s.disk loc dst content)) .failedCopy
  pure ⟨.copied source destination, [], [target], { s with disk := disk }⟩

def fsMove (s : Session) (source destination : String) : Except ToolError Reply := do
  let src ← resolveUnderWorkspace s.disk cwd source true
  let dst ← resolveUnderWorkspace s.disk cwd destination false
  let disk ← required (s.disk.rename src dst) .failedMove
  let arrived := if src = dst then [] else (disk.map Prod.fst).filter (fun loc => decide (dst <+: loc))
  pure ⟨.moved source destination, [], arrived, { s with disk := disk }⟩

/-- A directory with all below it, or a file. -/
def fsDelete (s : Session) (path : String) : Except ToolError Reply := do
  let resolved ← resolveUnderWorkspace s.disk cwd path true
  pure ⟨.deleted path, [], [], { s with disk := s.disk.removeAll resolved }⟩

end

/-- Directories the recursive walks leave out. -/
def skipDirs : List String := [".git", "target", "node_modules", ".next", ".cache"]

/-- A search under way. -/
structure Search where
  queue : List Loc
  results : List SearchHit
  sources : List Loc
  visitedFiles : Nat

section

variable (disk : Disk Content) (matched : String → Bool) (maxResults : Nat)

/-- The lines of a file that match, up to the limit. -/
def hitsIn (path : Loc) (content : String) (room : Nat) : List SearchHit :=
  (((lines content).zipIdx.filter (fun line => matched line.1)).take room).map
    (fun line => ⟨path, line.2 + 1, trim line.1⟩)

/-- One file or directory from the front of the queue; `inr` where the search is done. -/
def Search.step (q : Search) : Search ⊕ (Search × Bool) :=
  match q.queue with
  | [] => .inr (q, false)
  | path :: rest =>
    let skip : Search := { q with queue := rest }
    match disk.resolve (Disk.spell path) with
    | .found loc =>
      match disk.get loc with
      | some .dir =>
        if path.getLast?.getD "" ∈ skipDirs then .inl skip
        else .inl { q with queue := rest ++ (disk.entries loc).map (fun name => path ++ [name]) }
      | some (.file content) =>
        if content.len > 256 * 1024 then .inl skip
        else if q.visitedFiles + 1 > 2000 then .inr (skip, false)
        else
          let visited : Search := { skip with visitedFiles := q.visitedFiles + 1 }
          match content with
          | .raw _ => .inl visited
          | .text text =>
            let hits := hitsIn matched path text (maxResults - q.results.length)
            let read : Search := { visited with
              results := q.results ++ hits
              sources := if hits = [] then q.sources else q.sources ++ [loc] }
            if hits ≠ [] ∧ read.results.length ≥ maxResults then .inr (read, true) else .inl read
      | _ => .inl skip
    | _ => .inl skip

/-- The loop; `none` where so many turns were not enough. -/
def Search.run : Nat → Search → Option (Search × Bool)
  | 0, _ => none
  | turns + 1, q =>
    match q.step disk matched maxResults with
    | .inr ended => some ended
    | .inl next => next.run turns

end

section

variable (host : Host) (cwd : List Hop)

/-- `lower` is `str::to_lowercase`. -/
def fsSearch (lower : String → String) (turns : Nat) (s : Session) (query : String) (path : Option String)
    (maxResults : Option Nat) (caseSensitive : Option Bool) : Option (Except ToolError Reply) :=
  if trim query = "" then some (.error .emptyQuery)
  else
    match resolveUnderWorkspace s.disk cwd (path.getD ".") true with
    | .error e => some (.error e)
    | .ok start =>
      let sensitive := caseSensitive.getD false
      let needle := if sensitive then query else lower query
      let matched (line : String) := containsText (if sensitive then line else lower line) needle
      let limit := min (max (maxResults.getD 50) 1) 100
      (Search.run s.disk matched limit turns ⟨[start], [], [], 0⟩).map
        (fun ended => .ok ⟨.search query ended.1.results ended.2, ended.1.sources, [], s⟩)

inductive FileCall where
  | fsRead (path : String)
  | fsReadLines (path : String) (first last : Option Nat)
  | fsWrite (path content : String)
  | fsEdit (path oldStr newStr : String) (replaceAll : Bool)
  | fsAppend (path content : String)
  | fsCopy (source destination : String)
  | fsMove (source destination : String)
  | fsDelete (path : String)
  deriving DecidableEq, Repr

def FileCall.run (s : Session) : FileCall → Except ToolError Reply
  | .fsRead path => Tools.fsRead host cwd s path
  | .fsReadLines path first last => Tools.fsReadLines host cwd s path first last
  | .fsWrite path content => Tools.fsWrite host cwd s path content
  | .fsEdit path oldStr newStr replaceAll => Tools.fsEdit host cwd s path oldStr newStr replaceAll
  | .fsAppend path content => Tools.fsAppend host cwd s path content
  | .fsCopy source destination => Tools.fsCopy cwd s source destination
  | .fsMove source destination => Tools.fsMove cwd s source destination
  | .fsDelete path => Tools.fsDelete cwd s path

end

end Zaion.Tools
