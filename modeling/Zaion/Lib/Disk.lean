import Mathlib.Data.List.Basic
import Mathlib.Data.List.Dedup
import Mathlib.Data.List.Infix

/-! A file system with symbolic links. An entry stands at a location, the names that lead to
it from the root; a path is walked name by name, and a link met on the way is replaced by its
target, so that a walk that ends ends at a location without links. -/
namespace Zaion.Lib

/-- One component of a path. -/
inductive Hop where
  /-- `.` and the empty component, as after a last `/`. -/
  | here
  /-- `..`. -/
  | up
  | name (name : String)
  deriving DecidableEq, Repr

inductive Entry (α : Type) where
  | dir
  | file (content : α)
  | link (absolute : Bool) (target : List Hop)
  deriving DecidableEq, Repr

abbrev Loc := List String

abbrev Disk (α : Type) := List (Loc × Entry α)

/-- Where a path leads. -/
inductive Place where
  | found (loc : Loc)
  /-- Nothing but the last name is missing. -/
  | missing (loc : Loc)
  | lost
  deriving DecidableEq, Repr

/-- Where a walk stops: at a place or at a link. -/
inductive Stop where
  | place (place : Place)
  | link (dir : Loc) (absolute : Bool) (target rest : List Hop)
  deriving DecidableEq, Repr

/-- The same place once there is a file at `loc`. -/
def Place.filled (loc : Loc) : Place → Place
  | .missing free => if free = loc then .found loc else .missing free
  | place => place

namespace Disk

variable {α : Type}

/-- The root is a directory. -/
def get (disk : Disk α) (loc : Loc) : Option (Entry α) := if loc = [] then some .dir else disk.lookup loc

def walk (disk : Disk α) (dir : Loc) : List Hop → Stop
  | [] => .place (.found dir)
  | .here :: rest => disk.walk dir rest
  | .up :: rest => disk.walk dir.dropLast rest
  | .name n :: rest =>
    match disk.get (dir ++ [n]) with
    | none => .place (if rest = [] then .missing (dir ++ [n]) else .lost)
    | some .dir => disk.walk (dir ++ [n]) rest
    | some (.file _) => .place (if rest = [] then .found (dir ++ [n]) else .lost)
    | some (.link absolute target) => .link dir absolute target rest

/-- A walk through at most so many links. -/
def follow (disk : Disk α) : Nat → Loc → List Hop → Place
  | 0, dir, hops =>
    match disk.walk dir hops with
    | .place place => place
    | .link .. => .lost
  | links + 1, dir, hops =>
    match disk.walk dir hops with
    | .place place => place
    | .link dir absolute target rest => disk.follow links (if absolute then [] else dir) (target ++ rest)

/-- The number of links the system follows. -/
def maxLinks : Nat := 40

def resolve (disk : Disk α) (hops : List Hop) : Place := disk.follow maxLinks [] hops

/-- `canonicalize`. -/
def canonicalize (disk : Disk α) (hops : List Hop) : Option Loc :=
  match disk.resolve hops with
  | .found loc => some loc
  | _ => none

/-- The path that spells a location out. -/
def spell (loc : Loc) : List Hop := loc.map Hop.name

/-- A location all above which are directories. -/
def Physical (disk : Disk α) (loc : Loc) : Prop := ∀ q, q <+: loc → q ≠ loc → disk.get q = some .dir

/-- A directory reached through directories. -/
def IsDir (disk : Disk α) (loc : Loc) : Prop := disk.Physical loc ∧ disk.get loc = some .dir

section

variable {disk : Disk α} {dir loc : Loc} {hops rest : List Hop} {n : String}

@[simp] theorem get_nil (disk : Disk α) : disk.get [] = some .dir := rfl

theorem isDir_nil (disk : Disk α) : disk.IsDir [] := by
  refine ⟨?_, rfl⟩
  intro q part other
  exact absurd (List.prefix_nil.mp part) other

theorem IsDir.physical_concat (here : disk.IsDir dir) (n : String) : disk.Physical (dir ++ [n]) := by
  intro q part other
  rcases List.prefix_concat_iff.mp part with whole | up
  · exact absurd whole other
  · by_cases same : q = dir
    · exact same ▸ here.2
    · exact here.1 q up same

theorem IsDir.concat (here : disk.IsDir dir) (found : disk.get (dir ++ [n]) = some .dir) : disk.IsDir (dir ++ [n]) :=
  ⟨here.physical_concat n, found⟩

theorem Physical.parent (here : disk.Physical (dir ++ [n])) : disk.IsDir dir := by
  have inside : dir <+: dir ++ [n] := List.prefix_append dir [n]
  refine ⟨?_, here dir inside (by simp)⟩
  intro q part other
  refine here q (part.trans inside) ?_
  rintro rfl
  have long := part.length_le
  rw [List.length_append,List.length_singleton] at long
  omega

theorem IsDir.dropLast (here : disk.IsDir dir) : disk.IsDir dir.dropLast := by
  rcases List.eq_nil_or_concat dir with rfl | ⟨up, n, rfl⟩
  · exact here
  · rw [List.concat_eq_append,List.dropLast_concat]
    rw [List.concat_eq_append] at here
    exact here.1.parent

/-- What a place is: something that is no link, or a free name in a directory. -/
def Real (disk : Disk α) : Place → Prop
  | .found loc => disk.Physical loc ∧ (disk.get loc = some .dir ∨ ∃ content, disk.get loc = some (.file content))
  | .missing loc => disk.Physical loc ∧ disk.get loc = none ∧ loc ≠ []
  | .lost => True

theorem Real.not_link (real : disk.Real (.found loc)) (absolute : Bool) (target : List Hop) :
    disk.get loc ≠ some (.link absolute target) := by
  rcases real.2 with dir | ⟨content, file⟩
  · rw [dir]
    exact nofun
  · rw [file]
    exact nofun

theorem walk_real (here : disk.IsDir dir) (hops : List Hop) :
    match disk.walk dir hops with
    | .place place => disk.Real place
    | .link dir' .. => disk.IsDir dir' := by
  induction hops generalizing dir with
  | nil => exact ⟨here.1, .inl here.2⟩
  | cons hop rest ih =>
    cases hop with
    | here => exact ih here
    | up => exact ih here.dropLast
    | name n =>
      rw [walk]
      cases found : disk.get (dir ++ [n]) with
      | none =>
        dsimp only
        split
        · exact ⟨here.physical_concat n, found, by simp⟩
        · trivial
      | some entry =>
        cases entry with
        | dir => exact ih (here.concat found)
        | file content =>
          dsimp only
          split
          · exact ⟨here.physical_concat n, .inr ⟨content, found⟩⟩
          · trivial
        | link absolute target => exact here

theorem follow_real (here : disk.IsDir dir) (links : Nat) : disk.Real (disk.follow links dir hops) := by
  induction links generalizing dir hops with
  | zero =>
    have stop := walk_real here hops
    rw [follow]
    cases walked : disk.walk dir hops with
    | place place =>
      rw [walked] at stop
      exact stop
    | link dir' absolute target rest => trivial
  | succ links ih =>
    have stop := walk_real here hops
    rw [follow]
    cases walked : disk.walk dir hops with
    | place place =>
      rw [walked] at stop
      exact stop
    | link dir' absolute target rest =>
      rw [walked] at stop
      dsimp only
      split
      · exact ih (isDir_nil disk)
      · exact ih stop

theorem resolve_real (disk : Disk α) (hops : List Hop) : disk.Real (disk.resolve hops) :=
  follow_real (isDir_nil disk) maxLinks

/-- Spelled out, a directory is walked to. -/
theorem walk_spell (here : disk.IsDir loc) (rest : List Hop) : disk.walk [] (spell loc ++ rest) = disk.walk loc rest := by
  induction loc using List.reverseRecOn generalizing rest with
  | nil => rfl
  | append_singleton up n ih =>
    rw [spell,List.map_append,List.append_assoc]
    have walked := ih here.1.parent (Hop.name n :: rest)
    rw [spell] at walked
    rw [List.map_singleton,List.singleton_append,walked,walk,here.2]

theorem follow_congr {dir' : Loc} {hops' : List Hop} (same : disk.walk dir hops = disk.walk dir' hops') (links : Nat) :
    disk.follow links dir hops = disk.follow links dir' hops' := by
  cases links <;> rw [follow,follow,same]

theorem resolve_spell (here : disk.IsDir loc) (rest : List Hop) : disk.resolve (spell loc ++ rest) = disk.follow maxLinks loc rest :=
  follow_congr (walk_spell here rest) maxLinks

/-- A walk goes on from the directory where its first part ends. -/
theorem walk_append (walked : disk.walk dir hops = .place (.found loc)) (last : disk.get loc = some .dir) (rest : List Hop) :
    disk.walk dir (hops ++ rest) = disk.walk loc rest := by
  induction hops generalizing dir with
  | nil =>
    cases walked
    rfl
  | cons hop hops ih =>
    cases hop with
    | here => exact ih walked
    | up => exact ih walked
    | name n =>
      rw [List.cons_append,walk]
      rw [walk] at walked
      cases found : disk.get (dir ++ [n]) with
      | none =>
        rw [found] at walked
        dsimp only at walked
        split at walked <;> cases walked
      | some entry =>
        rw [found] at walked
        cases entry with
        | dir => exact ih walked
        | file content =>
          dsimp only at walked
          split at walked
          · cases walked
            rw [last] at found
            cases found
          · cases walked
        | link absolute target => cases walked

theorem walk_append_link {dir' : Loc} {absolute : Bool} {target rest' : List Hop}
    (walked : disk.walk dir hops = .link dir' absolute target rest') (rest : List Hop) :
    disk.walk dir (hops ++ rest) = .link dir' absolute target (rest' ++ rest) := by
  induction hops generalizing dir with
  | nil => cases walked
  | cons hop hops ih =>
    cases hop with
    | here => exact ih walked
    | up => exact ih walked
    | name n =>
      rw [List.cons_append,walk]
      rw [walk] at walked
      cases found : disk.get (dir ++ [n]) with
      | none =>
        rw [found] at walked
        cases walked
      | some entry =>
        rw [found] at walked
        cases entry with
        | dir => exact ih walked
        | file content => cases walked
        | link a t =>
          cases walked
          rfl

/-- Links followed so far are no longer there for the rest. -/
theorem follow_append {links : Nat} (first : disk.follow links dir hops = .found loc) (last : disk.get loc = some .dir)
    (rest : List Hop) : ∃ left ≤ links, disk.follow links dir (hops ++ rest) = disk.follow left loc rest := by
  induction links generalizing dir hops with
  | zero =>
    rw [follow] at first
    cases walked : disk.walk dir hops with
    | place place =>
      rw [walked] at first
      cases first
      exact ⟨0, le_refl 0, follow_congr (walk_append walked last rest) 0⟩
    | link dir' absolute target rest' =>
      rw [walked] at first
      cases first
  | succ links ih =>
    rw [follow] at first
    cases walked : disk.walk dir hops with
    | place place =>
      rw [walked] at first
      cases first
      exact ⟨links + 1, le_refl _, follow_congr (walk_append walked last rest) (links + 1)⟩
    | link dir' absolute target rest' =>
      rw [walked] at first
      obtain ⟨left, few, same⟩ := ih first
      refine ⟨left, Nat.le_succ_of_le few, ?_⟩
      rw [← same,follow,walk_append_link walked rest,List.append_assoc]

theorem follow_more {links more : Nat} (enough : disk.follow links dir hops = .found loc) (few : links ≤ more) :
    disk.follow more dir hops = .found loc := by
  induction links generalizing dir hops more with
  | zero =>
    rw [follow] at enough
    cases walked : disk.walk dir hops with
    | place place =>
      rw [walked] at enough
      cases more <;> rw [follow,walked] <;> exact enough
    | link dir' absolute target rest' =>
      rw [walked] at enough
      cases enough
  | succ links ih =>
    obtain ⟨more, rfl⟩ : ∃ k, more = k + 1 := ⟨more - 1, by omega⟩
    rw [follow] at enough ⊢
    cases walked : disk.walk dir hops with
    | place place =>
      rw [walked] at enough
      exact enough
    | link dir' absolute target rest' =>
      rw [walked] at enough
      exact ih enough (by omega)

/-- What a name in a directory leads to: its own location, unless it is a link. -/
theorem resolve_concat {path : List Hop} {target : Loc} (directory : disk.resolve path = .found dir)
    (kind : disk.get dir = some .dir) (found : disk.resolve (path ++ [Hop.name n]) = .found target) :
    target = dir ++ [n] ∨ ∃ absolute hops, disk.get (dir ++ [n]) = some (.link absolute hops) ∧
      disk.resolve (spell (dir ++ [n])) = .found target := by
  have real := resolve_real disk path
  rw [directory] at real
  obtain ⟨left, few, same⟩ := follow_append directory kind [Hop.name n]
  have spelled : disk.resolve (spell (dir ++ [n])) = .found target := by
    rw [spell,List.map_append]
    refine (resolve_spell ⟨real.1, kind⟩ [Hop.name n]).trans (follow_more ?_ few)
    rw [← same]
    exact found
  have direct : disk.resolve (spell (dir ++ [n])) = disk.follow maxLinks dir [Hop.name n] := by
    rw [spell,List.map_append]
    exact resolve_spell ⟨real.1, kind⟩ [Hop.name n]
  cases entry : disk.get (dir ++ [n]) with
  | none =>
    rw [direct,maxLinks,follow,walk,entry] at spelled
    cases spelled
  | some entry' =>
    cases entry' with
    | link absolute hops => exact .inr ⟨absolute, hops, rfl, spelled⟩
    | dir =>
      rw [direct,maxLinks,follow,walk,entry] at spelled
      cases spelled
      exact .inl rfl
    | file content =>
      rw [direct,maxLinks,follow,walk,entry] at spelled
      cases spelled
      exact .inl rfl

/-- A name in a directory is found in its own place, unless it is a link. -/
theorem resolve_name (here : disk.IsDir dir) (plain : ∀ absolute target, disk.get (dir ++ [n]) ≠ some (.link absolute target)) :
    disk.resolve (spell (dir ++ [n])) =
      if (disk.get (dir ++ [n])).isSome = true then .found (dir ++ [n]) else .missing (dir ++ [n]) := by
  rw [spell,List.map_append]
  refine (resolve_spell here [Hop.name n]).trans ?_
  rw [maxLinks,follow,walk]
  cases entry : disk.get (dir ++ [n]) with
  | none => rfl
  | some entry' =>
    cases entry' with
    | dir => rfl
    | file content => rfl
    | link absolute target => exact absurd entry (plain absolute target)

/-- What was resolved once is found where it was. -/
theorem resolve_spell_self (real : disk.Real (.found loc)) : disk.resolve (spell loc) = .found loc := by
  rcases List.eq_nil_or_concat loc with rfl | ⟨up, n, rfl⟩
  · rfl
  · rw [List.concat_eq_append] at *
    rw [resolve_name real.1.parent real.not_link]
    rcases real.2 with dir | ⟨content, file⟩
    · rw [dir]
      rfl
    · rw [file]
      rfl

/-- A name after what was resolved leads to its own place, unless it is a link. -/
theorem resolve_last (real : disk.Real (.found dir)) {target : Loc}
    (leads : disk.resolve (spell (dir ++ [n])) = .found target ∨ disk.resolve (spell (dir ++ [n])) = .missing target) :
    target = dir ++ [n] ∨ disk.IsDir dir ∧ ∃ absolute hops, disk.get (dir ++ [n]) = some (.link absolute hops) := by
  by_cases kind : disk.get dir = some .dir
  · by_cases link : ∃ absolute hops, disk.get (dir ++ [n]) = some (.link absolute hops)
    · exact .inr ⟨⟨real.1, kind⟩, link⟩
    · refine .inl ?_
      rw [resolve_name ⟨real.1, kind⟩ (fun absolute hops found => link ⟨absolute, hops, found⟩)] at leads
      split at leads
      · rcases leads with found | missing
        · cases found
          rfl
        · cases missing
      · rcases leads with found | missing
        · cases found
        · cases missing
          rfl
  · -- A file has nothing below it.
    exfalso
    rcases List.eq_nil_or_concat dir with rfl | ⟨up, m, rfl⟩
    · exact kind rfl
    · rw [List.concat_eq_append] at *
      have walked : disk.resolve (spell (up ++ [m] ++ [n])) = .lost := by
        rw [spell,List.append_assoc,List.map_append]
        refine (resolve_spell real.1.parent [Hop.name m, Hop.name n]).trans ?_
        rw [maxLinks,follow,walk]
        cases entry : disk.get (up ++ [m]) with
        | none => rfl
        | some entry' =>
          cases entry' with
          | dir => exact absurd entry kind
          | file content => rfl
          | link absolute target => exact absurd entry (real.not_link absolute target)
      rw [walked] at leads
      rcases leads with found | missing
      · cases found
      · cases missing

end

def fileAt (disk : Disk α) (loc : Loc) : Option α :=
  match disk.get loc with
  | some (.file content) => some content
  | _ => none

/-- `is_dir` of a location. -/
def isDir (disk : Disk α) (loc : Loc) : Bool :=
  match disk.get loc with
  | some .dir => true
  | _ => false

/-- The file a path leads to, and its content. -/
def readFile (disk : Disk α) (hops : List Hop) : Option (Loc × α) :=
  match disk.resolve hops with
  | .found loc => (disk.fileAt loc).map (fun content => (loc, content))
  | _ => none

def put (disk : Disk α) (loc : Loc) (entry : Entry α) : Disk α := (loc, entry) :: disk

/-- Opens a file for writing, and makes it where there is none: the new content from the old. -/
def store (disk : Disk α) (hops : List Hop) (content : Option α → α) : Option (Loc × Disk α) :=
  match disk.resolve hops with
  | .found loc => (disk.fileAt loc).map (fun old => (loc, disk.put loc (.file (content (some old)))))
  | .missing loc => some (loc, disk.put loc (.file (content none)))
  | .lost => none

/-- The names in a directory. -/
def entries (disk : Disk α) (dir : Loc) : List String :=
  (disk.filterMap (fun e => if e.1.dropLast = dir then e.1.getLast? else none)).dedup

/-- An entry and all below it. -/
def removeAll (disk : Disk α) (loc : Loc) : Disk α := disk.filter (fun e => !decide (loc <+: e.1))

/-- What is at one location comes to another, in the place of what is there. -/
def relocate (disk : Disk α) (source target : Loc) : Disk α :=
  (disk.filter (fun e => decide (source <+: e.1))).map (fun e => (target ++ e.1.drop source.length, e.2)) ++
    (disk.removeAll source).removeAll target

/-- `rename`: a file takes the place of anything but a directory, a directory that of nothing
or of an empty directory outside it. -/
def rename (disk : Disk α) (source target : Loc) : Option (Disk α) :=
  if !disk.isDir target.dropLast then none
  else if source = target then (disk.get source).map (fun _ => disk)
  else
    match disk.get source, disk.get target with
    | some .dir, none => if source <+: target then none else some (disk.relocate source target)
    | some .dir, some .dir =>
      if source <+: target ∨ disk.entries target ≠ [] then none else some (disk.relocate source target)
    | some .dir, some _ => none
    | some _, some .dir => none
    | some _, _ => some (disk.relocate source target)
    | none, _ => none

section

variable {disk disk' : Disk α} {loc l source target : Loc} {hops : List Hop} {content : Option α → α}

theorem fileAt_iff {c : α} : disk.fileAt loc = some c ↔ disk.get loc = some (.file c) := by
  unfold fileAt
  split
  · rename_i found
    rw [found]
    simp
  · rename_i other
    simp only [false_iff,reduceCtorEq]
    exact fun found => other c found

theorem fileAt_nil (disk : Disk α) : disk.fileAt [] = none := rfl

theorem fileAt_put {c : α} (inside : loc ≠ []) :
    (disk.put loc (.file c)).fileAt l = if l = loc then some c else disk.fileAt l := by
  unfold fileAt get put
  rw [List.lookup_cons]
  by_cases same : l = loc
  · subst same
    simp [inside]
  · simp [same,beq_false_of_ne same]

/-- A file is stored where the path leads, and nowhere else. -/
theorem store_cases (stored : disk.store hops content = some (loc, disk')) :
    loc ≠ [] ∧ disk' = disk.put loc (.file (content (disk.fileAt loc))) ∧
      (disk.resolve hops = .found loc ∧ (disk.fileAt loc).isSome = true ∨
        disk.resolve hops = .missing loc ∧ disk.get loc = none) := by
  have real := resolve_real disk hops
  unfold store at stored
  cases place : disk.resolve hops with
  | found there =>
    rw [place] at stored real
    obtain ⟨old, file, same⟩ := Option.map_eq_some_iff.mp stored
    cases same
    refine ⟨?_, by rw [file], .inl ⟨rfl, by rw [file]; rfl⟩⟩
    rintro rfl
    cases file
  | missing there =>
    rw [place] at stored real
    cases stored
    refine ⟨real.2.2, ?_, .inr ⟨rfl, real.2.1⟩⟩
    have nothing : disk.fileAt loc = none := by
      unfold fileAt
      rw [real.2.1]
    rw [nothing]
  | lost =>
    rw [place] at stored
    cases stored

theorem readFile_iff {c : α} : disk.readFile hops = some (loc, c) ↔ disk.resolve hops = .found loc ∧ disk.fileAt loc = some c := by
  unfold readFile
  cases disk.resolve hops with
  | found there =>
    simp only [Option.map_eq_some_iff,Prod.mk.injEq,Place.found.injEq]
    constructor
    · rintro ⟨_, found, rfl, rfl⟩
      exact ⟨rfl, found⟩
    · rintro ⟨rfl, found⟩
      exact ⟨c, found, rfl, rfl⟩
  | missing there => simp
  | lost => simp

theorem get_put {entry : Entry α} (inside : loc ≠ []) :
    (disk.put loc entry).get l = if l = loc then some entry else disk.get l := by
  unfold get put
  rw [List.lookup_cons]
  by_cases same : l = loc
  · subst same
    simp [inside]
  · simp [same,beq_false_of_ne same]

/-- A file in the place of a file or of nothing changes no walk but one that ends there. -/
theorem walk_put {c : α} (inside : loc ≠ []) (plain : disk.get loc = none ∨ ∃ old, disk.get loc = some (.file old))
    (dir : Loc) (hops : List Hop) :
    (disk.put loc (.file c)).walk dir hops =
      match disk.walk dir hops with
      | .place place => .place (place.filled loc)
      | .link dir' absolute target rest => .link dir' absolute target rest := by
  induction hops generalizing dir with
  | nil => rfl
  | cons hop rest ih =>
    cases hop with
    | here => exact ih dir
    | up => exact ih dir.dropLast
    | name n =>
      rw [walk,walk,get_put inside]
      by_cases same : dir ++ [n] = loc
      · rw [if_pos same,same]
        by_cases last : rest = []
        · rcases plain with free | ⟨old, file⟩
          · simp [free,last,Place.filled]
          · simp [file,last,Place.filled]
        · rcases plain with free | ⟨old, file⟩
          · simp [free,last,Place.filled]
          · simp [file,last,Place.filled]
      · rw [if_neg same]
        cases disk.get (dir ++ [n]) with
        | none => by_cases last : rest = [] <;> simp [last,same,Place.filled]
        | some entry =>
          cases entry with
          | dir => exact ih (dir ++ [n])
          | file old => by_cases last : rest = [] <;> simp [last,Place.filled]
          | link absolute target => rfl

theorem follow_put {c : α} (inside : loc ≠ []) (plain : disk.get loc = none ∨ ∃ old, disk.get loc = some (.file old))
    (links : Nat) (dir : Loc) (hops : List Hop) :
    (disk.put loc (.file c)).follow links dir hops = (disk.follow links dir hops).filled loc := by
  induction links generalizing dir hops with
  | zero =>
    rw [follow,follow,walk_put inside plain]
    cases disk.walk dir hops <;> rfl
  | succ links ih =>
    rw [follow,follow,walk_put inside plain]
    cases disk.walk dir hops with
    | place place => rfl
    | link dir' absolute target rest => exact ih _ _

/-- What was stored is found by the path it was stored under. -/
theorem resolve_stored (stored : disk.store hops content = some (loc, disk')) : disk'.resolve hops = .found loc := by
  obtain ⟨inside, rfl, place⟩ := store_cases stored
  rcases place with ⟨found, file⟩ | ⟨missing, free⟩
  · obtain ⟨old, here⟩ := Option.isSome_iff_exists.mp file
    have same := follow_put (c := content (disk.fileAt loc)) inside (.inr ⟨old, fileAt_iff.mp here⟩) maxLinks [] hops
    rw [resolve] at found
    rw [found] at same
    exact same
  · have same := follow_put (c := content (disk.fileAt loc)) inside (.inl free) maxLinks [] hops
    rw [resolve] at missing
    rw [missing,Place.filled,if_pos rfl] at same
    exact same

theorem lookup_filter (disk : Disk α) (kept : Loc → Bool) (l : Loc) :
    List.lookup l (disk.filter (fun e => kept e.1)) = if kept l = true then disk.lookup l else none := by
  induction disk with
  | nil => simp
  | cons e rest ih =>
    obtain ⟨at_, entry⟩ := e
    by_cases same : l = at_
    · subst same
      by_cases keep : kept l = true
      · simp [keep]
      · simp [keep,ih]
    · by_cases keep : kept at_ = true
      · simp [keep,List.lookup_cons,beq_false_of_ne same,ih]
      · simp [keep,List.lookup_cons,beq_false_of_ne same,ih]

theorem get_removeAll (disk : Disk α) (loc l : Loc) :
    (disk.removeAll loc).get l = if loc <+: l ∧ l ≠ [] then none else disk.get l := by
  unfold get removeAll
  rw [lookup_filter disk (fun at_ => !decide (loc <+: at_)) l]
  by_cases root : l = []
  · simp [root]
  · by_cases below : loc <+: l
    · simp [root,below]
    · simp [root,below]

theorem lookup_moved (disk : Disk α) (source target l : Loc) :
    List.lookup l ((disk.filter (fun e => decide (source <+: e.1))).map
      (fun e => (target ++ e.1.drop source.length, e.2))) =
        if target <+: l then disk.lookup (source ++ l.drop target.length) else none := by
  induction disk with
  | nil => simp
  | cons e rest ih =>
    obtain ⟨at_, entry⟩ := e
    by_cases below : source <+: at_
    · obtain ⟨tail, rfl⟩ := below
      have cons_ : List.filter (fun e : Loc × Entry α => decide (source <+: e.1)) ((source ++ tail, entry) :: rest) =
          (source ++ tail, entry) :: List.filter (fun e : Loc × Entry α => decide (source <+: e.1)) rest := by
        rw [List.filter_cons,if_pos (by simp)]
      rw [cons_,List.map_cons,List.lookup_cons,List.lookup_cons,ih,List.drop_left]
      by_cases same : l = target ++ tail
      · subst same
        simp
      · rw [beq_false_of_ne same]
        by_cases under : target <+: l
        · obtain ⟨other, rfl⟩ := under
          have apart : source ++ other ≠ source ++ tail := fun equal => same (by rw [List.append_cancel_left equal])
          simp [beq_false_of_ne apart]
        · simp [under]
    · have cons_ : List.filter (fun e : Loc × Entry α => decide (source <+: e.1)) ((at_, entry) :: rest) =
          List.filter (fun e : Loc × Entry α => decide (source <+: e.1)) rest := by
        rw [List.filter_cons,if_neg (by simpa using below)]
      have apart : source ++ l.drop target.length ≠ at_ := fun equal => below ⟨_, equal⟩
      rw [cons_,ih,List.lookup_cons,beq_false_of_ne apart]

/-- After a move the target holds what the source held, and the source nothing. -/
theorem get_relocate (inside : target ≠ []) :
    (disk.relocate source target).get l = if target <+: l then disk.lookup (source ++ l.drop target.length)
      else if source <+: l ∧ l ≠ [] then none else disk.get l := by
  unfold relocate
  rw [get,List.lookup_append,lookup_moved]
  by_cases root : l = []
  · subst root
    have apart : ¬ target <+: [] := fun part => inside (List.prefix_nil.mp part)
    simp [apart]
  · rw [if_neg root]
    have others := get_removeAll (disk.removeAll source) target l
    rw [get,if_neg root,get_removeAll] at others
    rw [others]
    by_cases under : target <+: l
    · simp [under,root]
    · by_cases below : source <+: l
      · simp [under,below,root]
      · simp [under,below]

theorem fileAt_relocate (movable : source ≠ []) (inside : target ≠ []) :
    (disk.relocate source target).fileAt l = if target <+: l then disk.fileAt (source ++ l.drop target.length)
      else if source <+: l then none else disk.fileAt l := by
  unfold fileAt
  rw [get_relocate inside]
  by_cases under : target <+: l
  · rw [if_pos under,if_pos under,get,if_neg (by simp [movable])]
  · rw [if_neg under,if_neg under]
    by_cases below : source <+: l
    · have other : l ≠ [] := fun root => movable (List.prefix_nil.mp (root ▸ below))
      rw [if_pos ⟨below, other⟩,if_pos below]
    · rw [if_neg (fun both => below both.1),if_neg below]

theorem mem_locs_of_fileAt {c : α} (file : disk.fileAt l = some c) : l ∈ disk.map Prod.fst := by
  have found := fileAt_iff.mp file
  unfold get at found
  split at found
  · cases found
  · obtain ⟨before, after, split, _⟩ := List.lookup_eq_some_iff.mp found
    rw [split]
    simp

/-- A rename that goes through: of a thing to itself, of a file over anything but a directory,
or of a directory to where nothing is or an empty directory. -/
theorem rename_cases (done : disk.rename source target = some disk') :
    source = target ∧ disk' = disk ∨ source ≠ target ∧ disk' = disk.relocate source target ∧
      ((disk.get source ≠ some .dir ∧ disk.get source ≠ none ∧ disk.get target ≠ some .dir) ∨
        disk.get source = some .dir ∧ (disk.get target = none ∨ disk.get target = some .dir ∧ disk.entries target = [])) := by
  unfold rename at done
  split at done
  · cases done
  split at done
  · rename_i itself
    obtain ⟨_, _, same⟩ := Option.map_eq_some_iff.mp done
    exact .inl ⟨itself, same.symm⟩
  rename_i other
  refine .inr ⟨other, ?_⟩
  cases src : disk.get source with
  | none => simp [src] at done
  | some entry =>
    cases entry with
    | dir =>
      cases tgt : disk.get target with
      | none =>
        simp only [src,tgt] at done
        split at done
        · cases done
        · cases done
          exact ⟨rfl, .inr ⟨rfl, .inl rfl⟩⟩
      | some entry' =>
        cases entry' with
        | dir =>
          simp only [src,tgt] at done
          split at done
          · cases done
          · rename_i allowed
            cases done
            refine ⟨rfl, .inr ⟨rfl, .inr ⟨rfl, ?_⟩⟩⟩
            by_contra full
            exact allowed (.inr full)
        | file _ => simp [src,tgt] at done
        | link _ _ => simp [src,tgt] at done
    | file _ =>
      cases tgt : disk.get target with
      | none =>
        simp only [src,tgt] at done
        cases done
        exact ⟨rfl, .inl ⟨nofun, nofun, nofun⟩⟩
      | some entry' =>
        cases entry' with
        | dir => simp [src,tgt] at done
        | file _ =>
          simp only [src,tgt] at done
          cases done
          exact ⟨rfl, .inl ⟨nofun, nofun, nofun⟩⟩
        | link _ _ =>
          simp only [src,tgt] at done
          cases done
          exact ⟨rfl, .inl ⟨nofun, nofun, nofun⟩⟩
    | link _ _ =>
      cases tgt : disk.get target with
      | none =>
        simp only [src,tgt] at done
        cases done
        exact ⟨rfl, .inl ⟨nofun, nofun, nofun⟩⟩
      | some entry' =>
        cases entry' with
        | dir => simp [src,tgt] at done
        | file _ =>
          simp only [src,tgt] at done
          cases done
          exact ⟨rfl, .inl ⟨nofun, nofun, nofun⟩⟩
        | link _ _ =>
          simp only [src,tgt] at done
          cases done
          exact ⟨rfl, .inl ⟨nofun, nofun, nofun⟩⟩

/-- The root is not moved elsewhere. -/
theorem source_ne_nil (done : disk.rename source target = some disk') (other : source ≠ target) : source ≠ [] := by
  rintro rfl
  unfold rename at done
  split at done
  · cases done
  rw [get_nil] at done
  cases there : disk.get target with
  | none => simp [there] at done
  | some entry => cases entry <;> simp [there] at done

end

end Disk

end Zaion.Lib
