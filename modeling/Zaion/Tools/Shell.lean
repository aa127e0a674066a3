import Zaion.Lib.Checked
import Zaion.Lib.Find
import Zaion.Lib.Json
import Zaion.Lib.Path
import Zaion.Lib.Text

/-! The gates of the shell tool, read against what the programs behind it make of their arguments. -/
namespace Zaion.Tools

open Lib

def allowedCommands : List String := ["git", "cargo", "echo", "ls", "dir", "cat", "type", "python", "python3"]

/-- `str::eq_ignore_ascii_case`. -/
def eqIgnoreAsciiCase (a b : String) : Bool := toAsciiLowercase a = toAsciiLowercase b

/-- `Path::file_stem`: the last component without its extension; a name that begins with its only dot has none. -/
def fileStem (path : String) : Option String :=
  match (Path.components path).getLast? with
  | some (.normal name) =>
    match rsplitOnce '.' name with
    | some (before, _) => some (String.ofList (if before = [] then name else before))
    | none => some (String.ofList name)
  | _ => none

def isAllowedCommand (cmd : String) : Bool := allowedCommands.any (eqIgnoreAsciiCase · ((fileStem cmd).getD cmd))

inductive CommandRisk where
  | readOnly
  | mutating
  | denied
  deriving DecidableEq

def deniedSubcommands : List (String × String) := [
  ("git", "push"),
  ("git", "clean"),
  ("git", "filter-branch"),
  ("cargo", "publish"),
  ("cargo", "install"),
  ("cargo", "yank"),
  ("cargo", "login")]

def readOnlySubcommands : List (String × String) := [
  ("git", "status"),
  ("git", "log"),
  ("git", "diff"),
  ("git", "show"),
  ("git", "branch"),
  ("git", "remote"),
  ("git", "tag"),
  ("git", "blame"),
  ("git", "describe"),
  ("git", "rev-parse"),
  ("git", "ls-files"),
  ("git", "config"),
  ("cargo", "check"),
  ("cargo", "tree"),
  ("cargo", "metadata"),
  ("cargo", "search"),
  ("cargo", "version"),
  ("cargo", "--version")]

def readOnlyCommands : List String := ["echo", "ls", "dir", "cat", "type"]

def commandBase (cmd : String) : String := toAsciiLowercase ((fileStem cmd).getD cmd)

def isFlag (arg : String) : Bool := startsWithText arg "-"

/-- The first argument that is no flag. -/
def firstPlain (args : List String) : Option String := args.find? (!isFlag ·)

def firstSubcommand (args : List String) : Option String := (firstPlain args).map toAsciiLowercase

def classifyCommand (cmd : String) (args : List String) : CommandRisk :=
  match firstSubcommand args with
  | some sub =>
    if (commandBase cmd, sub) ∈ deniedSubcommands then .denied
    else if commandBase cmd ∈ readOnlyCommands then .readOnly
    else if (commandBase cmd, sub) ∈ readOnlySubcommands then .readOnly
    else .mutating
  | none => .readOnly

/-- `shell_arg_stays_in_workspace`. -/
def shellArgStaysInWorkspace (arg : String) : Bool :=
  !Path.isAbsolute arg && !(Path.components arg).any fun part => part = .parentDir ∨ part = .rootDir

/-- How a refusal names the call. -/
def calledAs (command : String) (args : List String) : String :=
  "command '" ++ command ++ ((firstSubcommand args).map (" " ++ ·)).getD "" ++ "'"

/-- The gates of `shell_exec_handler`. -/
def shellGates (command : String) (args : List String) (readOnly : Bool) : Except String Unit := do
  ensure (isAllowedCommand command = true) ("command '" ++ command ++ "' is not in the allow-list [" ++
    ", ".intercalate (allowedCommands.map fun name => "\"" ++ name ++ "\"") ++ "]")
  checkAll (fun arg => ensure (shellArgStaysInWorkspace arg = true)
    ("argument '" ++ arg ++ "' is outside the workspace policy")) args
  match classifyCommand command args with
  | .denied => .error (calledAs command args ++ " is denied by policy (destructive or network-reaching)")
  | .mutating => ensure (readOnly = false) (calledAs command args ++ " is mutating and the call requested read_only=true")
  | .readOnly => .ok ()

/-- What a call that passes the gates comes to. -/
inductive ShellRun where
  | echoed (stdout : String)
  | spawned (command : String) (args : List String) (timeoutSecs : Nat)
  deriving DecidableEq

/-- `shell_exec_handler` up to the start of the program. -/
def shellExec (input : Json) : Except String ShellRun := do
  let command ← required ((input.get "command").bind Json.asStr) "missing 'command' parameter"
  let args := (((input.get "args").bind Json.asArray).getD []).filterMap Json.asStr
  shellGates command args (((input.get "read_only").bind Json.asBool).getD false)
  if eqIgnoreAsciiCase command "echo" then .ok (.echoed (" ".intercalate args ++ "\n"))
  else .ok (.spawned command args (((input.get "timeout_secs").bind Json.asU64).getD 10))

/-- The flags of git that take the argument after them. -/
def valueFlags : List String := ["-C", "-c", "--git-dir", "--work-tree", "--namespace"]

/-- The sub-command that git selects. -/
def gitSubcommand : List String → Option String
  | [] => none
  | [arg] => if isFlag arg then none else some arg
  | arg :: value :: rest =>
    if arg ∈ valueFlags then gitSubcommand rest
    else if isFlag arg then gitSubcommand (value :: rest)
    else some arg

/-- What a call that passes may be: a listed program by its name; no denied sub-command of git; and in a read-only call no
program text, module or script for python. -/
structure Contained (command : String) (args : List String) (readOnly : Bool) : Prop where
  bare : ∃ name ∈ allowedCommands, eqIgnoreAsciiCase name command = true
  git : commandBase command = "git" → ∀ sub, gitSubcommand args = some sub → ("git", sub) ∉ deniedSubcommands
  python : readOnly = true → commandBase command ∈ ["python", "python3"] →
    ∀ arg ∈ args, isFlag arg = true ∧ startsWithText arg "-c" = false ∧ startsWithText arg "-m" = false

/-- The first argument that is no flag is the value of one. -/
def ValueFirst : List String → Prop
  | [] => False
  | [_] => False
  | arg :: value :: rest =>
    if arg ∈ valueFlags then isFlag value = true → ValueFirst rest
    else isFlag arg = true ∧ ValueFirst (value :: rest)

/-- A call whose shape hides nothing: the command is a name without a directory and an extension; where a flag of git
takes the first argument that is no flag, git selects nothing denied behind it; and in a read-only call of python no flag
brings a program or a module. -/
structure Straight (command : String) (args : List String) (readOnly : Bool) : Prop where
  name : '/' ∉ command.toList ∧ '.' ∉ command.toList
  git : commandBase command = "git" → ValueFirst args → ∀ sub, gitSubcommand args = some sub → ("git", sub) ∉ deniedSubcommands
  python : readOnly = true → commandBase command ∈ ["python", "python3"] →
    ∀ arg ∈ args, startsWithText arg "-c" = false ∧ startsWithText arg "-m" = false

section

variable {command : String} {args : List String} {readOnly : Bool}

/-- A name without directory and extension is its own stem. -/
theorem fileStem_of_name (slash : '/' ∉ command.toList) (dot : '.' ∉ command.toList) : (fileStem command).getD command = command := by
  have relative : Path.isAbsolute command = false := by
    rw [Path.isAbsolute,beq_eq_false_iff_ne]
    exact fun head => slash (List.mem_of_head? head)
  have whole : command.toList.splitOn '/' = [command.toList] := List.splitOn_eq_singleton slash
  have noDot : rsplitOnce '.' command.toList = none := by
    have through : command.toList.reverse.dropWhile (· ≠ '.') = [] := by
      rw [List.dropWhile_eq_nil_iff]
      intro c member
      exact decide_eq_true fun same => dot (same ▸ List.mem_reverse.mp member)
    rw [rsplitOnce,through]
  have names : Path.components command = [command.toList].filterMap Path.ofSegment := by
    have noDotFirst : (command.toList.splitOn '/').head? ≠ some ['.'] := by
      rw [whole,List.head?_cons]
      exact fun same => dot (Option.some.inj same ▸ List.mem_singleton_self _)
    rw [Path.components,if_neg (by rw [relative]; exact Bool.false_ne_true),if_neg noDotFirst,Path.names,whole]
  cases text : command.toList with
  | nil => rw [fileStem,names,text]; rfl
  | cons c rest =>
    have segment : Path.ofSegment (c :: rest) = some (.normal (c :: rest)) := by
      have other : c ≠ '.' := fun same => dot (text ▸ same ▸ List.mem_cons_self)
      unfold Path.ofSegment
      split
      · next empty => cases empty
      · next here => exact absurd (List.cons.inj here).1 other
      · next here => exact absurd (List.cons.inj here).1 other
      · rfl
    rw [text] at names noDot
    rw [List.filterMap_cons_some segment,List.filterMap_nil] at names
    simp only [fileStem,names,List.getLast?_singleton,noDot,Option.getD_some]
    rw [← text,String.ofList_toList]

theorem allowed_plain : ∀ name ∈ allowedCommands, toAsciiLowercase name = name ∧ '/' ∉ name.toList ∧ '.' ∉ name.toList := by
  decide

/-- A listed program is called by its name exactly when its command has neither. -/
theorem bare_iff (allowed : isAllowedCommand command = true) :
    (∃ name ∈ allowedCommands, eqIgnoreAsciiCase name command = true) ↔ '/' ∉ command.toList ∧ '.' ∉ command.toList := by
  constructor
  · rintro ⟨name, listed, same⟩
    obtain ⟨lower, slash, dot⟩ := allowed_plain name listed
    have letters : name.toList = command.toList.map asciiLower := by
      rw [eqIgnoreAsciiCase,decide_eq_true_eq,lower] at same
      rw [same,toAsciiLowercase,String.toList_ofList]
    rw [letters] at slash dot
    exact ⟨fun member => slash (List.mem_map.mpr ⟨'/', member, by decide⟩),
      fun member => dot (List.mem_map.mpr ⟨'.', member, by decide⟩)⟩
  · rintro ⟨slash, dot⟩
    rw [isAllowedCommand,fileStem_of_name slash dot,List.any_eq_true] at allowed
    exact allowed

theorem valueFlags_flags : ∀ flag ∈ valueFlags, isFlag flag = true := by decide

/-- Where no value comes first, git selects the first argument that is no flag. -/
theorem gitSubcommand_eq (straight : ¬ ValueFirst args) : gitSubcommand args = firstPlain args := by
  induction args using gitSubcommand.induct with
  | case1 => rfl
  | case2 arg flag => simp [gitSubcommand,firstPlain,flag]
  | case3 arg plain => simp [gitSubcommand,firstPlain,plain]
  | case4 arg value rest takes ih =>
    rw [ValueFirst,if_pos takes] at straight
    obtain ⟨flag, straight⟩ := Classical.not_imp.mp straight
    rw [gitSubcommand,if_pos takes,ih straight]
    simp [firstPlain,valueFlags_flags arg takes,flag]
  | case5 arg value rest keeps flag ih =>
    rw [ValueFirst,if_neg keeps] at straight
    rw [gitSubcommand,if_neg keeps,if_pos flag,ih fun first => straight ⟨flag, first⟩]
    simp [firstPlain,flag]
  | case6 arg value rest keeps plain =>
    rw [gitSubcommand,if_neg keeps,if_neg plain]
    simp [firstPlain,plain]

theorem shellGates_ok (passes : shellGates command args readOnly = .ok ()) : isAllowedCommand command = true ∧
    classifyCommand command args ≠ .denied ∧ (readOnly = true → classifyCommand command args = .readOnly) := by
  simp only [shellGates,check_bind_ok_iff,ensure_ok_iff] at passes
  obtain ⟨allowed, _, rest⟩ := passes
  refine ⟨allowed, ?_⟩
  cases risk : classifyCommand command args with
  | denied =>
    rw [risk] at rest
    cases rest
  | mutating =>
    rw [risk] at rest
    have writes := ensure_ok_iff.mp rest
    exact ⟨by simp, fun only => by simp [only] at writes⟩
  | readOnly => exact ⟨by simp, fun _ => rfl⟩

/-- A sub-command that git would select first is refused when it is denied. -/
theorem firstPlain_not_denied (passed : classifyCommand command args ≠ .denied) (git : commandBase command = "git") {sub : String}
    (first : firstPlain args = some sub) : ("git", sub) ∉ deniedSubcommands := by
  intro denied
  refine passed ?_
  have lower : ∀ pair ∈ deniedSubcommands, toAsciiLowercase pair.2 = pair.2 := by decide
  have same := lower ("git", sub) denied
  dsimp only at same
  rw [classifyCommand,firstSubcommand,first,Option.map_some,same,git]
  exact if_pos denied

/-- In a read-only call python gets flags only. -/
theorem python_flags (passed : classifyCommand command args = .readOnly)
    (python : commandBase command ∈ ["python", "python3"]) : ∀ arg ∈ args, isFlag arg = true := by
  have unlisted : ∀ base ∈ ["python", "python3"], base ∉ readOnlyCommands ∧ base ∉ readOnlySubcommands.map Prod.fst := by decide
  obtain ⟨gated, noSub⟩ := unlisted _ python
  cases first : firstPlain args with
  | none => simpa [firstPlain] using first
  | some sub =>
    have never : (commandBase command, toAsciiLowercase sub) ∉ readOnlySubcommands := by
      intro listed
      have key := List.mem_map_of_mem (f := Prod.fst) listed
      exact noSub key
    simp only [classifyCommand,firstSubcommand,first,Option.map_some,if_neg gated,if_neg never] at passed
    split at passed <;> cases passed

/-- What passes the gates is contained exactly when its shape hides nothing. -/
theorem contained_iff (passes : shellGates command args readOnly = .ok ()) :
    Contained command args readOnly ↔ Straight command args readOnly := by
  obtain ⟨allowed, notDenied, reads⟩ := shellGates_ok passes
  constructor
  · rintro ⟨bare, git, python⟩
    exact ⟨(bare_iff allowed).mp bare, fun isGit _ => git isGit, fun only isPython arg member => (python only isPython arg member).2⟩
  · rintro ⟨name, git, python⟩
    refine ⟨(bare_iff allowed).mpr name, fun isGit sub selected => ?_, fun only isPython arg member => ?_⟩
    · by_cases hidden : ValueFirst args
      · exact git isGit hidden sub selected
      · rw [gitSubcommand_eq hidden] at selected
        exact firstPlain_not_denied notDenied isGit selected
    · exact ⟨python_flags (reads only) isPython arg member, python only isPython arg member⟩

end

/-- Programs are started only of calls that pass the gates. -/
theorem shellExec_gates {input : Json} {command : String} {args : List String} {timeout : Nat}
    (started : shellExec input = .ok (.spawned command args timeout)) :
    shellGates command args (((input.get "read_only").bind Json.asBool).getD false) = .ok () := by
  simp only [shellExec,bind_ok_iff,required_ok_iff] at started
  obtain ⟨given, _, _, passes, started⟩ := started
  split at started
  · cases started
  · cases started
    exact passes

theorem status_contained : Contained "git" ["-C", "sub", "status"] false :=
  (contained_iff (by decide)).mpr {
    name := by decide
    git := fun _ _ sub selected => by
      have status : gitSubcommand ["-C", "sub", "status"] = some "status" := by decide
      rw [← Option.some.inj (status.symm.trans selected)]
      decide
    python := nofun }

/-- The directory stands first, and what git is to do behind it. -/
theorem global_flag_passes : shellGates "git" ["-C", "sub", "push"] false = .ok () ∧
    ¬ Contained "git" ["-C", "sub", "push"] false :=
  ⟨by decide, fun contained => contained.git (by decide) "push" (by decide) (by decide)⟩

end Zaion.Tools
