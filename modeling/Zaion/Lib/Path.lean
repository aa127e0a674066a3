import Mathlib.Data.List.Basic
import Mathlib.Data.List.Infix

/-! Unix paths as texts: their components, joining, and the lexical removal of `.` and `..`. -/
namespace Zaion.Lib.Path

inductive Component where
  | rootDir
  | curDir
  | parentDir
  | normal (name : List Char)
  deriving DecidableEq, Repr

/-- An empty segment and `.` name nothing. -/
def ofSegment : List Char → Option Component
  | [] => none
  | ['.'] => none
  | ['.', '.'] => some .parentDir
  | name => some (.normal name)

def names (path : String) : List Component := (path.toList.splitOn '/').filterMap ofSegment

def isAbsolute (path : String) : Bool := path.toList.head? == some '/'

/-- `Path::components`: a leading `.` is kept, the others and repeated separators are not. -/
def components (path : String) : List Component :=
  if isAbsolute path then .rootDir :: names path
  else if (path.toList.splitOn '/').head? = some ['.'] then .curDir :: names path
  else names path

/-- `Path::join`. -/
def join (root path : String) : String :=
  if isAbsolute path then path
  else if root = "" ∨ root.toList.getLast? = some '/' then root ++ path
  else root ++ "/" ++ path

/-- `PathBuf::pop`: the root has no parent. -/
def pop (path : List Component) : List Component := if path = [.rootDir] then path else path.dropLast

def normalizeStep (path : List Component) : Component → List Component
  | .curDir => path
  | .parentDir => pop path
  | component => path ++ [component]

def normalize (path : List Component) : List Component := path.foldl normalizeStep []

/-- A file name that is one component of its own. -/
def Plain (name : String) : Prop := ofSegment name.toList = some (.normal name.toList) ∧ '/' ∉ name.toList

namespace Plain

variable {name : String}

theorem ne_nil (plain : Plain name) : name.toList ≠ [] := by
  intro empty
  have := plain.1
  rw [empty] at this
  cases this

theorem not_absolute (plain : Plain name) : isAbsolute name = false := by
  have inside := plain.2
  unfold isAbsolute
  cases text : name.toList with
  | nil => rfl
  | cons c rest =>
    rw [text,List.mem_cons,not_or] at inside
    simpa using Ne.symm inside.1

theorem splitOn (plain : Plain name) : name.toList.splitOn '/' = [name.toList] :=
  List.splitOn_eq_singleton plain.2

theorem names_eq (plain : Plain name) : names name = [.normal name.toList] := by
  rw [names,plain.splitOn,List.filterMap_cons_some plain.1,List.filterMap_nil]

end Plain

/-- Joining a relative path appends its segments; a separator at the end of the directory
only opens an empty one. -/
theorem splitOn_join {root path : String} (relative : isAbsolute path = false) (nonempty : root ≠ "") :
    ∃ front, front ≠ [] ∧ (root.toList.splitOn '/' = front ∨ root.toList.splitOn '/' = front ++ [[]]) ∧
      (join root path).toList.splitOn '/' = front ++ path.toList.splitOn '/' := by
  unfold join
  rw [if_neg (by simp [relative])]
  by_cases slash : root.toList.getLast? = some '/'
  · obtain ⟨start, split⟩ := List.getLast?_eq_some_iff.mp slash
    refine ⟨start.splitOn '/', List.splitOn_ne_nil _ _, .inr ?_, ?_⟩
    · rw [split,List.splitOn_append_cons_self,List.splitOn_nil]
    · rw [if_pos (.inr slash),String.toList_append,split,List.append_assoc,List.singleton_append,
        List.splitOn_append_cons_self]
  · refine ⟨root.toList.splitOn '/', List.splitOn_ne_nil _ _, .inl rfl, ?_⟩
    rw [if_neg (by simp [nonempty,slash]),String.toList_append,String.toList_append,List.append_assoc]
    exact List.splitOn_append_cons_self ..

theorem names_join {root path : String} (relative : isAbsolute path = false) :
    names (join root path) = names root ++ names path := by
  by_cases empty : root = ""
  · simp [empty,join,relative,names,ofSegment]
  · obtain ⟨front, _, here | here, joined⟩ := splitOn_join relative empty
    · simp [names,here,joined]
    · simp [names,here,joined,ofSegment]

theorem isAbsolute_join {root path : String} (relative : isAbsolute path = false) (nonempty : root ≠ "") :
    isAbsolute (join root path) = isAbsolute root := by
  have first : root.toList ≠ [] := by simpa using nonempty
  unfold join isAbsolute at *
  rw [if_neg (by simpa using relative)]
  split
  · rw [String.toList_append,List.head?_append_of_ne_nil _ first]
  · rw [String.toList_append,String.toList_append,List.append_assoc,List.head?_append_of_ne_nil _ first]

theorem components_join {root path : String} (relative : isAbsolute path = false) (nonempty : root ≠ "") :
    components (join root path) = components root ++ names path := by
  have start : ((join root path).toList.splitOn '/').head? = (root.toList.splitOn '/').head? := by
    obtain ⟨front, some, here | here, joined⟩ := splitOn_join relative nonempty
    · rw [joined,here,List.head?_append_of_ne_nil _ some]
    · rw [joined,here,List.head?_append_of_ne_nil _ some,List.head?_append_of_ne_nil _ some]
  unfold components
  rw [isAbsolute_join relative nonempty,names_join relative,start]
  split
  · rfl
  · split <;> rfl

theorem Plain.join_empty {name : String} (plain : Plain name) : join "" name = name := by
  simp [join,plain.not_absolute]

/-- A plain name below any directory is one more component. -/
theorem components_child (root : String) {name : String} (plain : Plain name) :
    components (join root name) = components root ++ [.normal name.toList] := by
  by_cases empty : root = ""
  · have named : ¬ some name.toList = some ['.'] := by
      intro dot
      have := plain.1
      rw [Option.some.inj dot] at this
      cases this
    have none : components "" = [] := by decide
    rw [empty,none,plain.join_empty,components,if_neg (by simp [plain.not_absolute]),plain.splitOn,
      List.head?_cons,if_neg named,plain.names_eq,List.nil_append]
  · rw [components_join plain.not_absolute empty,plain.names_eq]

theorem isAbsolute_child (root : String) {name : String} (plain : Plain name) :
    isAbsolute (join root name) = isAbsolute root := by
  by_cases empty : root = ""
  · have none : isAbsolute "" = false := by decide
    rw [empty,none,plain.join_empty,plain.not_absolute]
  · exact isAbsolute_join plain.not_absolute empty

theorem names_child (root : String) {name : String} (plain : Plain name) :
    names (join root name) = names root ++ [.normal name.toList] := by
  rw [names_join plain.not_absolute,plain.names_eq]

theorem normalize_append_normal (path : List Component) (name : List Char) :
    normalize (path ++ [.normal name]) = normalize path ++ [.normal name] := by
  simp [normalize,normalizeStep]

end Zaion.Lib.Path
