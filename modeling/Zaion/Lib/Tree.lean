import Mathlib.Data.List.Basic
import Mathlib.Data.List.Dedup
import Mathlib.Data.List.Infix

/-! Trees of directories and files: a path is the names that lead to it, and everything above
what is there is a directory. Writing a file makes the directories above it, and fails where
one of them is a file or the path itself is a directory. -/
namespace Zaion.Lib

inductive Node where
  | dir
  | file (content : List UInt8)
  deriving DecidableEq, Repr

structure Tree where
  nodes : List (List String × Node)
  rooted : ∀ p name, (nodes.lookup (p ++ [name])).isSome = true → p = [] ∨ nodes.lookup p = some .dir

/-- The paths above a path. -/
def above (p : List String) : List (List String) := p.inits.filter (fun q => q ≠ p)

theorem mem_above {q p : List String} : q ∈ above p ↔ q <+: p ∧ q ≠ p := by
  simp [above]

theorem mem_above_concat {q p : List String} {name : String} : q ∈ above (p ++ [name]) ↔ q = p ∨ q ∈ above p := by
  rw [mem_above,mem_above,List.prefix_concat_iff]
  constructor
  · rintro ⟨whole | part, other⟩
    · exact absurd whole other
    · by_cases same : q = p
      · exact .inl same
      · exact .inr ⟨part, same⟩
  · rintro (rfl | ⟨part, other⟩)
    · exact ⟨.inr (List.prefix_refl q), by simp⟩
    · refine ⟨.inr part, ?_⟩
      rintro rfl
      have long := part.length_le
      rw [List.length_append,List.length_singleton] at long
      omega

/-- Where no key comes twice, a lookup finds what is listed. -/
theorem lookup_iff_mem {α β : Type} [BEq α] [LawfulBEq α] {l : List (α × β)} (keys : (l.map Prod.fst).Nodup) {a : α} {b : β} :
    l.lookup a = some b ↔ (a, b) ∈ l := by
  induction l with
  | nil => simp
  | cons entry rest ih =>
    obtain ⟨k, v⟩ := entry
    rw [List.map_cons,List.nodup_cons] at keys
    rw [List.lookup_cons,List.mem_cons,Prod.mk.injEq]
    by_cases same : a = k
    · subst same
      have absent : (a, b) ∉ rest := fun member => keys.1 (List.mem_map.mpr ⟨_, member, rfl⟩)
      simp [absent,eq_comm]
    · rw [beq_false_of_ne same]
      simp [same,ih keys.2]

namespace Tree

variable {t t' : Tree} {p q : List String} {content : List UInt8}

def empty : Tree := ⟨[], by simp⟩

/-- What is at a path; the root is a directory. -/
def get (t : Tree) (p : List String) : Option Node := if p = [] then some .dir else t.nodes.lookup p

@[simp] theorem get_nil (t : Tree) : t.get [] = some .dir := rfl

theorem get_parent {name : String} (there : (t.get (p ++ [name])).isSome = true) : t.get p = some .dir := by
  rw [get,if_neg (by simp)] at there
  rcases t.rooted p name there with rfl | found
  · rfl
  · unfold get
    split
    · rfl
    · exact found

/-- All above what is there are directories. -/
theorem get_above (higher : q ∈ above p) (there : (t.get p).isSome = true) : t.get q = some .dir := by
  induction p using List.reverseRecOn with
  | nil => simp [above] at higher
  | append_singleton p name ih =>
    have parent := get_parent there
    rcases mem_above_concat.mp higher with rfl | up
    · exact parent
    · exact ih up (by rw [parent]; rfl)

def fileAt (t : Tree) (p : List String) : Option (List UInt8) :=
  match t.get p with
  | some (.file content) => some content
  | _ => none

theorem fileAt_iff : t.fileAt p = some content ↔ t.get p = some (.file content) := by
  unfold fileAt
  split
  · rename_i found
    rw [found]
    simp
  · rename_i other
    simp only [false_iff,reduceCtorEq]
    exact fun found => other content found

/-- No directory at the path and no file above it. -/
def Fits (t : Tree) (p : List String) : Prop :=
  p ≠ [] ∧ t.get p ≠ some .dir ∧ ∀ q ∈ above p, t.fileAt q = none

instance (t : Tree) (p : List String) : Decidable (t.Fits p) := inferInstanceAs (Decidable (_ ∧ _ ∧ _))

theorem lookup_cons_eq (nodes : List (List String × Node)) (node : Node) :
    ((p, node) :: nodes).lookup q = if q = p then some node else nodes.lookup q := by
  rw [List.lookup_cons]
  by_cases same : q = p
  · simp [same]
  · simp [beq_false_of_ne same,same]

theorem lookup_dirs (paths : List (List String)) (q : List String) :
    (paths.map (fun p => (p, Node.dir))).lookup q = if q ∈ paths then some .dir else none := by
  induction paths with
  | nil => rfl
  | cons p rest ih =>
    rw [List.map_cons,lookup_cons_eq,ih]
    by_cases same : q = p
    · simp [same]
    · simp [same]

def written (t : Tree) (p : List String) (content : List UInt8) : List (List String × Node) :=
  (p, .file content) :: ((above p).map (fun q => (q, Node.dir)) ++ t.nodes)

theorem lookup_written : (t.written p content).lookup q =
    if q = p then some (.file content) else if q ∈ above p then some .dir else t.nodes.lookup q := by
  unfold written
  rw [lookup_cons_eq,List.lookup_append,lookup_dirs]
  by_cases same : q = p
  · simp [same]
  · by_cases higher : q ∈ above p
    · simp [same,higher]
    · simp [same,higher]

/-- `create_dir_all` of the parent and `write`. -/
def writeFile (t : Tree) (p : List String) (content : List UInt8) : Option Tree :=
  if fits : t.Fits p then some ⟨t.written p content, by
    intro q name there
    have up (under : q ∈ above p) : q = [] ∨ (t.written p content).lookup q = some .dir := by
      rw [lookup_written,if_neg (mem_above.mp under).2,if_pos under]
      exact .inr rfl
    rw [lookup_written] at there
    by_cases same : q ++ [name] = p
    · exact up (same ▸ mem_above_concat.mpr (.inl rfl))
    · rw [if_neg same] at there
      by_cases higher : q ++ [name] ∈ above p
      · refine up (mem_above.mpr ⟨?_, ?_⟩)
        · exact (List.prefix_append q [name]).trans (mem_above.mp higher).1
        · rintro rfl
          have long := (mem_above.mp higher).1.length_le
          rw [List.length_append,List.length_singleton] at long
          omega
      · rw [if_neg higher] at there
        rcases t.rooted q name there with root | found
        · exact .inl root
        · by_cases root : q = []
          · exact .inl root
          · have directory : t.get q = some .dir := by rw [get,if_neg root,found]
            have other : q ≠ p := fun same => fits.2.1 (same ▸ directory)
            rw [lookup_written,if_neg other,found]
            exact .inr (ite_self _)⟩
  else none

theorem writeFile_isSome : (t.writeFile p content).isSome = true ↔ t.Fits p := by
  unfold writeFile
  split <;> simp_all

theorem get_writeFile (done : t.writeFile p content = some t') (q : List String) :
    t'.get q = if q = p then some (.file content) else if q ∈ above p then some .dir else t.get q := by
  unfold writeFile at done
  split at done
  · rename_i fits
    cases done
    by_cases root : q = []
    · subst root
      rw [get_nil,if_neg fits.1.symm,get_nil,ite_self]
    · rw [get,if_neg root,lookup_written,get,if_neg root]
  · cases done

theorem fileAt_writeFile (done : t.writeFile p content = some t') (q : List String) :
    t'.fileAt q = if q = p then some content else t.fileAt q := by
  have fits : t.Fits p := writeFile_isSome.mp (by rw [done]; rfl)
  unfold fileAt
  rw [get_writeFile done]
  by_cases same : q = p
  · simp [same]
  · rw [if_neg same,if_neg same]
    by_cases higher : q ∈ above p
    · have nothing := fits.2.2 q higher
      unfold fileAt at nothing
      rw [if_pos higher,nothing]
    · rw [if_neg higher]

/-- Writing makes no room for another file, and takes none unless one is above the other. -/
theorem fits_writeFile (done : t.writeFile p content = some t') (apart : q ∉ above p) (apart' : p ∉ above q) :
    t'.Fits q ↔ t.Fits q := by
  have fits : t.Fits p := writeFile_isSome.mp (by rw [done]; rfl)
  unfold Fits
  have file (r : List String) (up : r ∈ above q) : t'.fileAt r = t.fileAt r := by
    rw [fileAt_writeFile done,if_neg]
    rintro rfl
    exact apart' up
  have dir : t'.get q = some .dir ↔ t.get q = some .dir := by
    rw [get_writeFile done]
    by_cases same : q = p
    · simp [same,fits.2.1]
    · rw [if_neg same,if_neg apart]
  refine and_congr_right fun _ => and_congr (not_congr dir) (forall_congr' fun r => ?_)
  constructor
  · intro none_ up
    rw [← file r up]
    exact none_ up
  · intro none_ up
    rw [file r up]
    exact none_ up

/-- The files of a tree. -/
def files (t : Tree) : List (List String × List UInt8) :=
  (t.nodes.map Prod.fst).dedup.filterMap (fun p => (t.fileAt p).map (fun content => (p, content)))

theorem mem_files {file : List String × List UInt8} : file ∈ t.files ↔ t.fileAt file.1 = some file.2 := by
  obtain ⟨p, content⟩ := file
  simp only [files,List.mem_filterMap,List.mem_dedup,Option.map_eq_some_iff]
  constructor
  · rintro ⟨q, _, found, here, same⟩
    cases same
    exact here
  · intro found
    refine ⟨p, ?_, content, found, rfl⟩
    have there := fileAt_iff.mp found
    by_cases root : p = []
    · subst root
      cases there
    · rw [get,if_neg root] at there
      obtain ⟨before, after, split, _⟩ := List.lookup_eq_some_iff.mp there
      rw [split]
      simp

theorem files_keys_nodup (t : Tree) : (t.files.map Prod.fst).Nodup := by
  have same : t.files.map Prod.fst = (t.nodes.map Prod.fst).dedup.filter (fun p => (t.fileAt p).isSome) := by
    unfold files
    rw [List.map_filterMap,← List.filterMap_eq_filter]
    congr 1
    funext p
    cases found : t.fileAt p <;> simp [Option.guard,found]
  rw [same]
  exact (List.nodup_dedup _).filter _

/-- No file is above another. -/
theorem files_apart {file other : List String × List UInt8} (first : file ∈ t.files) (second : other ∈ t.files) :
    file.1 ∉ above other.1 := by
  intro higher
  have there := fileAt_iff.mp (mem_files.mp second)
  have directory := get_above higher (by rw [there]; rfl)
  have content := fileAt_iff.mp (mem_files.mp first)
  rw [directory] at content
  cases content

/-- Writes one after the other, up to the first that fails. -/
def writeAll (t : Tree) : List (List String × List UInt8) → Tree × Bool
  | [] => (t, true)
  | (p, content) :: rest =>
    match t.writeFile p content with
    | none => (t, false)
    | some next => next.writeAll rest

/-- Files none of which is above another are written if each of them has its place. -/
theorem writeAll_done_iff {files : List (List String × List UInt8)}
    (apart : ∀ file ∈ files, ∀ other ∈ files, file.1 ∉ above other.1) :
    (t.writeAll files).2 = true ↔ ∀ file ∈ files, t.Fits file.1 := by
  induction files generalizing t with
  | nil => simp [writeAll]
  | cons file rest ih =>
    obtain ⟨p, content⟩ := file
    rw [writeAll]
    cases done : t.writeFile p content with
    | none =>
      have stuck : ¬ t.Fits p := by
        rw [← writeFile_isSome,done]
        exact Bool.false_ne_true
      simp [stuck]
    | some next =>
      have fits : t.Fits p := writeFile_isSome.mp (by rw [done]; rfl)
      have later := ih (t := next) (fun file member other member' =>
        apart file (List.mem_cons_of_mem _ member) other (List.mem_cons_of_mem _ member'))
      have same (file : List String × List UInt8) (member : file ∈ rest) : next.Fits file.1 ↔ t.Fits file.1 := by
        refine fits_writeFile done ?_ ?_
        · exact apart file (List.mem_cons_of_mem _ member) (p, content) List.mem_cons_self
        · exact apart (p, content) List.mem_cons_self file (List.mem_cons_of_mem _ member)
      rw [later,List.forall_mem_cons]
      constructor
      · exact fun all => ⟨fits, fun file member => (same file member).mp (all file member)⟩
      · exact fun all file member => (same file member).mpr (all.2 file member)

/-- What is read after writes of different files. -/
theorem fileAt_writeAll {files : List (List String × List UInt8)} (keys : (files.map Prod.fst).Nodup)
    (done : (t.writeAll files).2 = true) (q : List String) :
    (t.writeAll files).1.fileAt q = (files.lookup q).or (t.fileAt q) := by
  induction files generalizing t with
  | nil => rfl
  | cons file rest ih =>
    obtain ⟨p, content⟩ := file
    rw [List.map_cons,List.nodup_cons] at keys
    rw [writeAll] at done ⊢
    cases wrote : t.writeFile p content with
    | none => simp [wrote] at done
    | some next =>
      simp only [wrote] at done ⊢
      rw [ih keys.2 done,fileAt_writeFile wrote,List.lookup_cons]
      by_cases same : q = p
      · have absent : rest.lookup q = none := by
          rw [List.lookup_eq_none_iff]
          intro other member
          rw [bne_iff_ne]
          rintro rfl
          exact keys.1 (same ▸ List.mem_map.mpr ⟨other, member, rfl⟩)
        subst same
        simp [absent]
      · simp [same,beq_false_of_ne same]

end Tree

end Zaion.Lib
