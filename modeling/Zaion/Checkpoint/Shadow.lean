import Zaion.Lib.Steps
import Zaion.Lib.Tree

/-! `CheckpointManager` for one directory: the directory, the work directory of its shadow
repository, which outlives every snapshot, and the commits. -/
namespace Zaion.Checkpoint

open Lib

abbrev File := List String × List UInt8

/-- The object store: which files of a work directory its ignore files hide, and the order in
which the tree of a commit is walked. -/
structure Git where
  ignored : Tree → List String → Bool
  walk : List File → List File
  perm : ∀ files, (walk files).Perm files

inductive CheckpointId where
  | empty
  | commit (n : Nat)
  deriving DecidableEq, Repr

inductive CheckpointError where
  | io
  | notFound
  deriving DecidableEq, Repr

structure Commit where
  message : String
  files : List File
  deriving DecidableEq, Repr

structure Shadow where
  dir : Tree
  workDir : Tree
  commits : List Commit

/-- The names of directories that are left out. -/
def skipped (name : String) : Bool :=
  name.toList.head? == some '.' || name == "target" || name == "node_modules" || name == "__pycache__"

/-- Outside such directories and of at most 5,000,000 bytes. -/
def tracked (file : File) : Bool :=
  file.1.dropLast.all (fun name => !skipped name) && decide (file.2.length ≤ 5000000)

def trackedFiles (dir : Tree) : List File := dir.files.filter tracked

/-- The files of a work directory that `add_all` takes. -/
def Git.added (git : Git) (workDir : Tree) : List File :=
  workDir.files.filter (fun file => !git.ignored workDir file.1)

/-- The work directory after `copy_dir_to_workdir`, and whether every copy was made. -/
def copyDirToWorkdir (dir workDir : Tree) : Tree × Bool := workDir.writeAll (trackedFiles dir)

def snapshot (git : Git) (s : Shadow) (now message : String) : Except CheckpointError CheckpointId × Shadow :=
  let (workDir, copied) := copyDirToWorkdir s.dir s.workDir
  if copied then
    if (trackedFiles s.dir).length = 0 then (.ok .empty, { s with workDir := workDir })
    else
      let message := "[zaion-checkpoint] " ++ now ++ " | " ++ message
      (.ok (.commit s.commits.length),
        { s with workDir := workDir, commits := s.commits ++ [⟨message, git.added workDir⟩] })
  else (.error .io, { s with workDir := workDir })

/-- `walk_and_write` of the tree of a commit. -/
def restoreTree (git : Git) (dir : Tree) (commit : Commit) : Tree × Bool := dir.writeAll (git.walk commit.files)

def restore (git : Git) (s : Shadow) : CheckpointId → Except CheckpointError Unit × Shadow
  | .empty => (.ok (), s)
  | .commit n =>
    match s.commits[n]? with
    | none => (.error .notFound, s)
    | some commit =>
      let (dir, done) := restoreTree git s.dir commit
      (if done then .ok () else .error .io, { s with dir := dir })

/-- A repository just made: its work directory holds the `.git` directory. -/
def newWorkDir : Tree := ⟨[([".git"], .dir)], by
  intro p name there
  cases p with
  | nil => exact .inl rfl
  | cons first rest =>
    rw [Tree.lookup_cons_eq,if_neg (by simp)] at there
    cases there⟩

inductive ShadowAct where
  /-- Anything that is done to the directory. -/
  | edit (dir : Tree)
  | snapshot (now message : String)
  | restore (id : CheckpointId)

/-- A checkpoint taken, with the directory and the work directory before it. -/
structure Taken where
  id : CheckpointId
  dir : Tree
  workDir : Tree

structure Watched where
  shadow : Shadow
  taken : List Taken

def Watched.act (git : Git) (w : Watched) : ShadowAct → Watched
  | .edit dir => { w with shadow := { w.shadow with dir := dir } }
  | .snapshot now message =>
    match snapshot git w.shadow now message with
    | (.ok id, next) => ⟨next, w.taken ++ [⟨id, w.shadow.dir, w.shadow.workDir⟩]⟩
    | (.error _, next) => { w with shadow := next }
  | .restore id => { w with shadow := (restore git w.shadow id).2 }

def watchedStep (git : Git) (w : Watched) (act : ShadowAct) : Option Watched := some (w.act git act)

def Watched.start (dir : Tree) : Watched := ⟨⟨dir, newWorkDir, []⟩, []⟩

/-- The content of a tracked file. -/
def trackedAt (dir : Tree) (p : List String) : Option (List UInt8) :=
  (dir.fileAt p).filter (fun content => tracked (p, content))

/-- The restore succeeds and the tracked files are those of the snapshot. -/
def Undoes (git : Git) (s : Shadow) (taken : Taken) : Prop :=
  (restore git s taken.id).1 = .ok () ∧
    ∀ p, trackedAt (restore git s taken.id).2.dir p = trackedAt taken.dir p

/-- The work directory, with the files of the snapshot in it, does not ignore the path. -/
def Git.keeps (git : Git) (taken : Taken) (p : List String) : Prop :=
  git.ignored (copyDirToWorkdir taken.dir taken.workDir).1 p = false

/-- The state in which a checkpoint restores what it recorded: the work directory had only
files that were there at the snapshot, each file stored has its place, and every other
tracked file is as it was. -/
def Undoable (git : Git) (dir : Tree) (taken : Taken) : Prop :=
  match taken.id with
  | .empty => ∀ p, trackedAt dir p = none
  | .commit _ =>
    (∀ p, (taken.workDir.fileAt p).isSome = true → git.keeps taken p → (trackedAt taken.dir p).isSome = true) ∧
    (∀ p, (trackedAt taken.dir p).isSome = true → git.keeps taken p → dir.Fits p) ∧
    (∀ p, ¬ ((trackedAt taken.dir p).isSome = true ∧ git.keeps taken p) → trackedAt dir p = trackedAt taken.dir p)

section

variable {git : Git} {s : Shadow} {taken : Taken} {dir workDir : Tree} {p : List String} {content : List UInt8}

theorem trackedAt_iff : trackedAt dir p = some content ↔ dir.fileAt p = some content ∧ tracked (p, content) = true := by
  rw [trackedAt,Option.filter_eq_some_iff]

/-- Part of the files of a tree, in any order, is looked up as the tree is. -/
theorem lookup_files {files : List File} {chosen : File → Bool} (perm : files.Perm (dir.files.filter chosen)) :
    files.lookup p = (dir.fileAt p).filter (fun content => chosen (p, content)) := by
  have keys : (files.map Prod.fst).Nodup := by
    rw [(perm.map _).nodup_iff]
    exact (dir.files_keys_nodup).sublist (List.filter_sublist.map _)
  apply Option.ext
  intro content
  rw [lookup_iff_mem keys,perm.mem_iff,List.mem_filter,Tree.mem_files,Option.filter_eq_some_iff]

theorem keys_files {files : List File} {chosen : File → Bool} (perm : files.Perm (dir.files.filter chosen)) :
    (files.map Prod.fst).Nodup := by
  rw [(perm.map _).nodup_iff]
  exact (dir.files_keys_nodup).sublist (List.filter_sublist.map _)

theorem apart_files {files : List File} {chosen : File → Bool} (perm : files.Perm (dir.files.filter chosen)) :
    ∀ file ∈ files, ∀ other ∈ files, file.1 ∉ above other.1 := by
  intro file member other member'
  exact Tree.files_apart (List.mem_filter.mp (perm.mem_iff.mp member)).1 (List.mem_filter.mp (perm.mem_iff.mp member')).1

/-- After the copies: the tracked files, and what was left from before. -/
theorem fileAt_copied (copied : (copyDirToWorkdir dir workDir).2 = true) (p : List String) :
    (copyDirToWorkdir dir workDir).1.fileAt p = (trackedAt dir p).or (workDir.fileAt p) := by
  have perm : (trackedFiles dir).Perm (dir.files.filter tracked) := .refl _
  unfold copyDirToWorkdir at copied ⊢
  rw [Tree.fileAt_writeAll (keys_files perm) copied,lookup_files perm]
  rfl

/-- Only tracked files are in the work directory. -/
def Shaped (workDir : Tree) : Prop := ∀ p content, workDir.fileAt p = some content → tracked (p, content) = true

theorem Shaped.writeAll {files : List File} (shaped : Shaped workDir) (all : ∀ file ∈ files, tracked file = true) :
    Shaped (workDir.writeAll files).1 := by
  induction files generalizing workDir with
  | nil => exact shaped
  | cons file rest ih =>
    obtain ⟨p, content⟩ := file
    rw [Tree.writeAll]
    cases wrote : workDir.writeFile p content with
    | none => exact shaped
    | some next =>
      refine ih ?_ (fun file member => all file (List.mem_cons_of_mem _ member))
      intro q found there
      rw [Tree.fileAt_writeFile wrote] at there
      by_cases same : q = p
      · rw [if_pos same] at there
        cases there
        exact same ▸ all (p, content) List.mem_cons_self
      · rw [if_neg same] at there
        exact shaped q found there

/-- What is known of a checkpoint later. -/
structure Recorded (git : Git) (commits : List Commit) (taken : Taken) : Prop where
  shaped : Shaped taken.workDir
  copied : (copyDirToWorkdir taken.dir taken.workDir).2 = true
  stored : match taken.id with
    | .empty => trackedFiles taken.dir = []
    | .commit n => ∃ message, commits[n]? = some ⟨message, git.added (copyDirToWorkdir taken.dir taken.workDir).1⟩

/-- What the tree of a commit has at a path. -/
theorem lookup_stored (copied : (copyDirToWorkdir taken.dir taken.workDir).2 = true) (p : List String) :
    (git.walk (git.added (copyDirToWorkdir taken.dir taken.workDir).1)).lookup p =
      ((trackedAt taken.dir p).or (taken.workDir.fileAt p)).filter
        (fun _ => !git.ignored (copyDirToWorkdir taken.dir taken.workDir).1 p) := by
  have perm := git.perm (git.added (copyDirToWorkdir taken.dir taken.workDir).1)
  unfold Git.added at perm ⊢
  rw [lookup_files perm,fileAt_copied copied]

theorem trackedAt_none_of_empty (none_ : trackedFiles dir = []) (p : List String) : trackedAt dir p = none := by
  have perm : (trackedFiles dir).Perm (dir.files.filter tracked) := .refl _
  have found := lookup_files (p := p) perm
  rw [none_] at found
  exact found.symm

/-- A restore of a commit that goes through: the files stored, and what else there was. -/
theorem fileAt_restored {commit : Commit} (done : (restoreTree git dir commit).2 = true)
    (keys : ((git.walk commit.files).map Prod.fst).Nodup) (p : List String) :
    (restoreTree git dir commit).1.fileAt p = ((git.walk commit.files).lookup p).or (dir.fileAt p) :=
  Tree.fileAt_writeAll keys done p

/-- The tracked files after it: a stored file as stored, any other as it was. -/
theorem trackedAt_restored {message : String} (shaped : Shaped taken.workDir)
    (copied : (copyDirToWorkdir taken.dir taken.workDir).2 = true)
    (done : (restoreTree git dir ⟨message, git.added (copyDirToWorkdir taken.dir taken.workDir).1⟩).2 = true) (p : List String) :
    trackedAt (restoreTree git dir ⟨message, git.added (copyDirToWorkdir taken.dir taken.workDir).1⟩).1 p =
      ((((trackedAt taken.dir p).or (taken.workDir.fileAt p)).filter
        (fun _ => !git.ignored (copyDirToWorkdir taken.dir taken.workDir).1 p)).or (trackedAt dir p)) := by
  have perm := git.perm (git.added (copyDirToWorkdir taken.dir taken.workDir).1)
  rw [trackedAt,fileAt_restored done (keys_files perm),lookup_stored copied]
  cases stored : ((trackedAt taken.dir p).or (taken.workDir.fileAt p)).filter
      (fun _ => !git.ignored (copyDirToWorkdir taken.dir taken.workDir).1 p) with
  | none => rfl
  | some content =>
    have fine : tracked (p, content) = true := by
      rcases Option.or_eq_some_iff.mp (Option.filter_eq_some_iff.mp stored).1 with own | ⟨_, left⟩
      · exact (trackedAt_iff.mp own).2
      · exact shaped p content left
    simp [fine]

/-- No file of a path is stored when the snapshot had none there, or it is ignored. -/
theorem stored_none (stale : ∀ p, (taken.workDir.fileAt p).isSome = true → git.keeps taken p → (trackedAt taken.dir p).isSome = true)
    (other : ¬ ((trackedAt taken.dir p).isSome = true ∧ git.keeps taken p)) :
    ((trackedAt taken.dir p).or (taken.workDir.fileAt p)).filter
      (fun _ => !git.ignored (copyDirToWorkdir taken.dir taken.workDir).1 p) = none := by
  rw [Option.filter_eq_none_iff]
  intro content found kept
  have keeps : git.keeps taken p := by simpa [Git.keeps] using kept
  rcases Option.or_eq_some_iff.mp found with own | ⟨_, left⟩
  · exact other ⟨by rw [own]; rfl, keeps⟩
  · exact other ⟨stale p (by rw [left]; rfl) keeps, keeps⟩

/-- A commit restores the snapshot exactly in the state described. -/
theorem undoes_commit_iff {n : Nat} {message : String} (named : taken.id = .commit n) (shaped : Shaped taken.workDir)
    (copied : (copyDirToWorkdir taken.dir taken.workDir).2 = true)
    (stored : s.commits[n]? = some ⟨message, git.added (copyDirToWorkdir taken.dir taken.workDir).1⟩) :
    Undoes git s taken ↔ Undoable git s.dir taken := by
  have perm := git.perm (git.added (copyDirToWorkdir taken.dir taken.workDir).1)
  have placed := Tree.writeAll_done_iff (t := s.dir) (apart_files perm)
  have inside (p : List String) (content : List UInt8) :
      (p, content) ∈ git.walk (git.added (copyDirToWorkdir taken.dir taken.workDir).1) ↔
        (trackedAt taken.dir p).or (taken.workDir.fileAt p) = some content ∧ git.keeps taken p := by
    rw [← lookup_iff_mem (keys_files perm),lookup_stored copied,Option.filter_eq_some_iff,Git.keeps,Bool.not_eq_true']
  have goal : Undoes git s taken ↔
      (restoreTree git s.dir ⟨message, git.added (copyDirToWorkdir taken.dir taken.workDir).1⟩).2 = true ∧
        ∀ p, trackedAt (restoreTree git s.dir ⟨message, git.added (copyDirToWorkdir taken.dir taken.workDir).1⟩).1 p =
          trackedAt taken.dir p := by
    unfold Undoes
    rw [named,restore,stored]
    refine and_congr_left fun _ => ?_
    dsimp only
    split
    · simp_all
    · simp_all
  rw [goal]
  unfold Undoable
  simp only [named]
  constructor
  · rintro ⟨done, same⟩
    have fits := placed.mp done
    have stale (p : List String) (left : (taken.workDir.fileAt p).isSome = true) (keeps : git.keeps taken p) :
        (trackedAt taken.dir p).isSome = true := by
      obtain ⟨content, found⟩ := Option.isSome_iff_exists.mp left
      have after := same p
      rw [trackedAt_restored shaped copied done] at after
      cases own : trackedAt taken.dir p with
      | some _ => rfl
      | none =>
        unfold Git.keeps at keeps
        simp [own,found,keeps] at after
    refine ⟨stale, ?_, ?_⟩
    · intro p own keeps
      obtain ⟨content, found⟩ := Option.isSome_iff_exists.mp own
      exact fits (p, content) ((inside p content).mpr ⟨by rw [found,Option.some_or], keeps⟩)
    · intro p other
      have after := same p
      rw [trackedAt_restored shaped copied done,stored_none stale other,Option.none_or] at after
      exact after
  · rintro ⟨stale, fits, rest⟩
    have done : (restoreTree git s.dir ⟨message, git.added (copyDirToWorkdir taken.dir taken.workDir).1⟩).2 = true := by
      refine placed.mpr ?_
      rintro ⟨p, content⟩ member
      obtain ⟨found, keeps⟩ := (inside p content).mp member
      rcases Option.or_eq_some_iff.mp found with own | ⟨_, left⟩
      · exact fits p (by rw [own]; rfl) keeps
      · exact fits p (stale p (by rw [left]; rfl) keeps) keeps
    refine ⟨done, ?_⟩
    intro p
    rw [trackedAt_restored shaped copied done]
    by_cases own : (trackedAt taken.dir p).isSome = true ∧ git.keeps taken p
    · obtain ⟨content, found⟩ := Option.isSome_iff_exists.mp own.1
      have keeps := own.2
      unfold Git.keeps at keeps
      simp [found,keeps]
    · rw [stored_none stale own,Option.none_or]
      exact rest p own

theorem undoes_iff (recorded : Recorded git s.commits taken) : Undoes git s taken ↔ Undoable git s.dir taken := by
  cases named : taken.id with
  | empty =>
    have stored := recorded.stored
    rw [named] at stored
    unfold Undoes Undoable
    simp only [named,restore,true_and]
    refine forall_congr' fun p => ?_
    rw [trackedAt_none_of_empty stored p]
  | commit n =>
    have stored := recorded.stored
    rw [named] at stored
    obtain ⟨message, found⟩ := stored
    exact undoes_commit_iff named recorded.shaped recorded.copied found

structure Watched.Sound (git : Git) (w : Watched) : Prop where
  shaped : Shaped w.shadow.workDir
  recorded : ∀ taken ∈ w.taken, Recorded git w.shadow.commits taken

theorem Watched.start_sound (dir : Tree) : (Watched.start dir).Sound git where
  shaped := by
    intro p content found
    have there := Tree.fileAt_iff.mp found
    unfold Lib.Tree.get at there
    split at there
    · cases there
    · simp only [Watched.start,newWorkDir,Tree.lookup_cons_eq] at there
      split at there
      · cases there
      · cases there
  recorded := fun _ member => nomatch member

/-- Commits are only added. -/
theorem Recorded.grow {commits : List Commit} (recorded : Recorded git commits taken) (more : List Commit) :
    Recorded git (commits ++ more) taken := by
  refine ⟨recorded.shaped, recorded.copied, ?_⟩
  have stored := recorded.stored
  cases named : taken.id with
  | empty =>
    rw [named] at stored
    exact stored
  | commit n =>
    rw [named] at stored
    obtain ⟨message, found⟩ := stored
    exact ⟨message, by rw [List.getElem?_append_left (List.getElem?_eq_some_iff.mp found).1,found]⟩

theorem Shaped.copied (shaped : Shaped workDir) (dir : Tree) : Shaped (copyDirToWorkdir dir workDir).1 :=
  shaped.writeAll (fun _ member => (List.mem_filter.mp member).2)

variable {w : Watched}

theorem Watched.Sound.snapshot (sound : w.Sound git) (now message : String) : (w.act git (.snapshot now message)).Sound git := by
  have shaped := sound.shaped.copied w.shadow.dir
  simp only [Watched.act,Checkpoint.snapshot]
  by_cases copied : (copyDirToWorkdir w.shadow.dir w.shadow.workDir).2 = true
  · rw [if_pos copied]
    by_cases none_ : (trackedFiles w.shadow.dir).length = 0
    · rw [if_pos none_]
      refine ⟨shaped, ?_⟩
      intro taken member
      rcases List.mem_append.mp member with old | new
      · exact sound.recorded taken old
      · obtain rfl := List.mem_singleton.mp new
        exact ⟨sound.shaped, copied, List.length_eq_zero_iff.mp none_⟩
    · rw [if_neg none_]
      refine ⟨shaped, ?_⟩
      intro taken member
      rcases List.mem_append.mp member with old | new
      · exact (sound.recorded taken old).grow _
      · obtain rfl := List.mem_singleton.mp new
        exact ⟨sound.shaped, copied, _, List.getElem?_concat_length⟩
  · rw [if_neg copied]
    exact ⟨shaped, sound.recorded⟩

theorem Watched.Sound.restore (sound : w.Sound git) (id : CheckpointId) : (w.act git (.restore id)).Sound git := by
  cases id with
  | empty => exact sound
  | commit n =>
    simp only [Watched.act,Checkpoint.restore]
    cases w.shadow.commits[n]? with
    | none => exact sound
    | some commit => exact ⟨sound.shaped, sound.recorded⟩

theorem Watched.Sound.act (sound : w.Sound git) (act : ShadowAct) : (w.act git act).Sound git := by
  cases act with
  | edit dir => exact ⟨sound.shaped, sound.recorded⟩
  | snapshot now message => exact sound.snapshot now message
  | restore id => exact sound.restore id

/-- At every point of every run of edits, snapshots and restores, a checkpoint taken before
undoes all that happened since exactly when it is undoable. -/
theorem restore_undoes_iff (git : Git) (dir : Tree) (acts : List ShadowAct)
    (run : steps (watchedStep git) (.start dir) acts = some w) :
    ∀ taken ∈ w.taken, Undoes git w.shadow taken ↔ Undoable git w.shadow.dir taken := by
  have sound : w.Sound git := by
    refine steps_invariant run (Watched.start_sound dir) ?_
    intro s act s' here taken
    obtain rfl := Option.some.inj taken
    exact here.act act
  intro taken member
  exact undoes_iff (sound.recorded taken member)

end

/-- A store that ignores nothing. -/
def plainGit : Git := ⟨fun _ _ => false, id, fun _ => .refl _⟩

/-- A directory with one file. -/
def oneFile (name : String) (content : List UInt8) : Tree := ⟨[([name], .file content)], by
  intro p other there
  cases p with
  | nil => exact .inl rfl
  | cons first rest =>
    rw [Tree.lookup_cons_eq,if_neg (by simp)] at there
    cases there⟩

theorem fileAt_oneFile (name : String) (content : List UInt8) (p : List String) :
    (oneFile name content).fileAt p = if p = [name] then some content else none := by
  unfold Lib.Tree.fileAt Lib.Tree.get oneFile
  rw [Tree.lookup_cons_eq]
  by_cases root : p = []
  · simp [root]
  · by_cases same : p = [name]
    · simp [same]
    · simp [root,same]

/-- A snapshot is taken of one file, and the file is changed. -/
def changedRun : List ShadowAct := [.snapshot "2026-01-01T00:00:00Z" "before patch", .edit (oneFile "a.txt" [2])]

def changedTaken : Taken := ⟨.commit 0, oneFile "a.txt" [1], newWorkDir⟩

theorem changed_undone : ∃ w, steps (watchedStep plainGit) (.start (oneFile "a.txt" [1])) changedRun = some w ∧
    changedTaken ∈ w.taken ∧ Undoes plainGit w.shadow changedTaken := by
  refine ⟨_, rfl, List.mem_singleton_self _, ?_⟩
  refine (restore_undoes_iff plainGit (oneFile "a.txt" [1]) changedRun rfl changedTaken (List.mem_singleton_self _)).mpr ?_
  have here (p : List String) : trackedAt (oneFile "a.txt" [1]) p = if p = ["a.txt"] then some [1] else none := by
    rw [trackedAt,fileAt_oneFile]
    by_cases same : p = ["a.txt"]
    · subst same
      decide
    · simp [same]
  have now (p : List String) (other : p ≠ ["a.txt"]) : trackedAt (oneFile "a.txt" [2]) p = none := by
    rw [trackedAt,fileAt_oneFile,if_neg other]
    rfl
  have bare (p : List String) : newWorkDir.fileAt p = none := by
    unfold Lib.Tree.fileAt Lib.Tree.get newWorkDir
    rw [Tree.lookup_cons_eq]
    by_cases root : p = []
    · simp [root]
    · by_cases same : p = [".git"]
      · simp [same]
      · simp [root,same]
  refine ⟨?_, ?_, ?_⟩
  · intro p left _
    rw [changedTaken,bare] at left
    cases left
  · intro p own _
    have only : p = ["a.txt"] := by
      by_contra other
      rw [changedTaken,here,if_neg other] at own
      cases own
    subst only
    decide
  · intro p other
    by_cases same : p = ["a.txt"]
    · subst same
      exact absurd ⟨by decide, rfl⟩ other
    · rw [changedTaken,here,if_neg same]
      exact now p same

/-- One file is deleted after a snapshot and another one made. -/
def createdRun : List ShadowAct := [.snapshot "2026-01-01T00:00:00Z" "before patch", .edit (oneFile "b.txt" [2])]

/-- The restore succeeds and leaves the new file behind. -/
theorem created_left : ∃ w, steps (watchedStep plainGit) (.start (oneFile "a.txt" [1])) createdRun = some w ∧
    changedTaken ∈ w.taken ∧ (restore plainGit w.shadow changedTaken.id).1 = .ok () ∧
      trackedAt changedTaken.dir ["b.txt"] = none ∧
        trackedAt (restore plainGit w.shadow changedTaken.id).2.dir ["b.txt"] = some [2] := by
  refine ⟨_, rfl, List.mem_singleton_self _, ?_, ?_, ?_⟩
  · decide
  · decide
  · decide

end Zaion.Checkpoint
