import Zaion.Sample
import Zaion.Tools.Files

/-! Where the files stand that the tools read and write. A path that must exist is resolved whole; of one
that need not, only the parent is, and a link in its last place is followed when the file is
opened. -/
namespace Zaion.Tools

open Lib

section

variable {disk : Disk Content} {cwd : List Hop} {path : String} {root resolved loc : Loc}

theorem workspaceRoot_ok (found : workspaceRoot disk cwd = .ok root) : disk.canonicalize cwd = some root :=
  required_ok_iff.mp found

theorem canonicalize_some {hops : List Hop} (found : disk.canonicalize hops = some loc) : disk.resolve hops = .found loc := by
  unfold Disk.canonicalize at found
  split at found
  · cases found
    assumption
  · cases found

/-- What is resolved stands under the root, reached through directories: as a whole when it
must exist, else up to its last name. -/
theorem resolve_ok {mustExist : Bool} (ok : resolveUnderWorkspace disk cwd path mustExist = .ok resolved) :
    ∃ root, workspaceRoot disk cwd = .ok root ∧ root <+: resolved ∧
      (mustExist = true → disk.resolve (Disk.spell root ++ hopsOf path) = .found resolved) ∧
        (mustExist = false → ∃ parent name, resolved = parent ++ [name] ∧ ∃ hops, disk.resolve hops = .found parent) := by
  unfold resolveUnderWorkspace at ok
  obtain ⟨root, first, ok⟩ := bind_ok_iff.mp ok
  obtain ⟨_, _, ok⟩ := bind_ok_iff.mp ok
  obtain ⟨_, _, ok⟩ := bind_ok_iff.mp ok
  obtain ⟨there, second, ok⟩ := bind_ok_iff.mp ok
  obtain ⟨_, under, ok⟩ := bind_ok_iff.mp ok
  cases ok
  refine ⟨root, first, (ensure_ok_iff.mp under), ?_, ?_⟩
  · rintro rfl
    exact canonicalize_some (required_ok_iff.mp second)
  · rintro rfl
    obtain ⟨name, _, second⟩ := bind_ok_iff.mp second
    obtain ⟨parent, canonical, second⟩ := bind_ok_iff.mp second
    cases second
    exact ⟨parent, name, rfl, _, canonicalize_some (required_ok_iff.mp canonical)⟩

/-- A path that must exist is read where it was resolved to. -/
theorem readFile_resolved {content : Content} (ok : resolveUnderWorkspace disk cwd path true = .ok resolved)
    (read : disk.readFile (Disk.spell resolved) = some (loc, content)) : loc = resolved := by
  obtain ⟨root, _, _, whole, _⟩ := resolve_ok ok
  have real := Disk.resolve_real disk (Disk.spell root ++ hopsOf path)
  rw [whole rfl] at real
  have found := (Disk.readFile_iff.mp read).1
  rw [Disk.resolve_spell_self real] at found
  exact (Place.found.inj found).symm

/-- A path that need not exist leads to another place than its own only through a link. -/
theorem leads_resolved (ok : resolveUnderWorkspace disk cwd path false = .ok resolved)
    (leads : disk.resolve (Disk.spell resolved) = .found loc ∨ disk.resolve (Disk.spell resolved) = .missing loc) :
    loc = resolved ∨ ∃ absolute target, disk.get resolved = some (.link absolute target) := by
  obtain ⟨root, _, _, _, last⟩ := resolve_ok ok
  obtain ⟨parent, name, rfl, hops, found⟩ := last rfl
  have real := Disk.resolve_real disk hops
  rw [found] at real
  rcases Disk.resolve_last real leads with own | ⟨_, link⟩
  · exact .inl own
  · exact .inr link

end

/-- The files whose content is answered stand under the root, and so does all that changed. -/
def Confined (s : Session) (root : Loc) (reply : Reply) : Prop :=
  (∀ loc ∈ reply.sources, root <+: loc) ∧ ∀ loc, reply.session.disk.get loc ≠ s.disk.get loc → root <+: loc

/-- The last name of a path is a link to a place outside the workspace, taken or free. -/
structure LeadsOutside (disk : Disk Content) (cwd : List Hop) (path : String) (resolved loc : Loc) : Prop where
  resolves : resolveUnderWorkspace disk cwd path false = .ok resolved
  link : ∃ absolute target, disk.get resolved = some (.link absolute target)
  leads : disk.resolve (Disk.spell resolved) = .found loc ∨ disk.resolve (Disk.spell resolved) = .missing loc
  outside : ∀ root, workspaceRoot disk cwd = .ok root → ¬ root <+: loc

section

variable (host : Host) (cwd : List Hop)

/-- No link takes the call out of the workspace, or nothing comes of it there: a directory is
not written to, an overwrite is refused, or the content would be the same. -/
def Harmless (s : Session) : FileCall → Prop
  | .fsWrite path content => ∀ resolved loc, LeadsOutside s.disk cwd path resolved loc →
      s.disk.get loc = some .dir ∨ ∃ old, s.disk.get loc = some (.file old) ∧
        (old = .text content ∨ ∀ current, old = .text current → checkDrift host s resolved current ≠ .fresh)
  | .fsAppend path content => ∀ resolved loc, LeadsOutside s.disk cwd path resolved loc →
      s.disk.get loc = some .dir ∨ content = "" ∧ ∃ old, s.disk.get loc = some (.file old)
  | .fsCopy source destination => ∀ resolved loc, LeadsOutside s.disk cwd destination resolved loc →
      s.disk.get loc = some .dir ∨ ∀ src content, resolveUnderWorkspace s.disk cwd source true = .ok src →
        s.disk.fileAt src = some content → s.disk.fileAt loc = some content
  | _ => True

end

section

variable {host : Host} {cwd : List Hop} {s : Session} {path content : String} {resolved loc root : Loc} {reply : Reply}

theorem readSmall_ok {text : String} (ok : readSmall cwd s path = .ok (resolved, loc, text)) :
    resolveUnderWorkspace s.disk cwd path true = .ok resolved ∧ loc = resolved ∧ s.disk.fileAt resolved = some (.text text) := by
  unfold readSmall at ok
  obtain ⟨at_, first, ok⟩ := bind_ok_iff.mp ok
  obtain ⟨⟨there, found⟩, second, ok⟩ := bind_ok_iff.mp ok
  obtain ⟨_, _, ok⟩ := bind_ok_iff.mp ok
  obtain ⟨whole, third, ok⟩ := bind_ok_iff.mp ok
  cases ok
  have read := required_ok_iff.mp second
  have own := readFile_resolved first read
  have kind : found = .text text := by
    have decoded := required_ok_iff.mp third
    cases found with
    | text t =>
      cases decoded
      rfl
    | raw b => cases decoded
  subst kind own
  exact ⟨first, rfl, (Disk.readFile_iff.mp read).2⟩

theorem root_unique {root' : Loc} (first : workspaceRoot s.disk cwd = .ok root) (second : workspaceRoot s.disk cwd = .ok root') :
    root' = root := Except.ok.inj (second.symm.trans first)

/-- Only the file written changes. -/
theorem under_of_changed {entry : Entry Content} {l : Loc} (inside : loc ≠ []) (under : root <+: loc)
    (changed : (s.disk.put loc entry).get l ≠ s.disk.get l) : root <+: l := by
  by_contra apart
  refine changed ?_
  have other : l ≠ loc := fun same => apart (same ▸ under)
  exact (Disk.get_put inside).trans (if_neg other)

/-- A call that writes one file in the workspace is confined. -/
theorem confined_put {entry : Entry Content} {states : List (Loc × String)} {answer : Answer} {written : List Loc}
    (inside : loc ≠ []) (under : root <+: loc) : Confined s root ⟨answer, [], written, ⟨s.disk.put loc entry, states⟩⟩ :=
  ⟨(fun _ member => nomatch member), fun _ changed => under_of_changed inside under changed⟩

theorem fsRead_confined (rooted : workspaceRoot s.disk cwd = .ok root) (ok : fsRead host cwd s path = .ok reply) :
    Confined s root reply := by
  unfold fsRead at ok
  obtain ⟨⟨at_, there, text⟩, first, ok⟩ := bind_ok_iff.mp ok
  cases ok
  obtain ⟨resolves, rfl, _⟩ := readSmall_ok first
  obtain ⟨root', rooted', under, _⟩ := resolve_ok resolves
  rw [root_unique rooted rooted'] at under
  refine ⟨?_, fun l changed => absurd rfl changed⟩
  intro l member
  rw [List.mem_singleton.mp member]
  exact under

theorem fsReadLines_confined {first last : Option Nat} (rooted : workspaceRoot s.disk cwd = .ok root)
    (ok : fsReadLines host cwd s path first last = .ok reply) : Confined s root reply := by
  unfold fsReadLines at ok
  obtain ⟨⟨at_, there, text⟩, first, ok⟩ := bind_ok_iff.mp ok
  cases ok
  obtain ⟨resolves, rfl, _⟩ := readSmall_ok first
  obtain ⟨root', rooted', under, _⟩ := resolve_ok resolves
  rw [root_unique rooted rooted'] at under
  refine ⟨?_, fun l changed => absurd rfl changed⟩
  intro l member
  rw [List.mem_singleton.mp member]
  exact under

/-- What is stored where a file was read replaces that file. -/
theorem store_resolved {f : Option Content → Content} {disk : Disk Content} {old : Content}
    (read : s.disk.readFile (Disk.spell resolved) = some (resolved, old))
    (stored : s.disk.store (Disk.spell resolved) f = some (loc, disk)) :
    loc = resolved ∧ loc ≠ [] ∧ disk = s.disk.put loc (.file (f (some old))) := by
  obtain ⟨inside, same, place⟩ := Disk.store_cases stored
  obtain ⟨found, file⟩ := Disk.readFile_iff.mp read
  rw [found] at place
  rcases place with ⟨equal, _⟩ | ⟨equal, _⟩
  · cases equal
    exact ⟨rfl, inside, by rw [same,file]⟩
  · cases equal

theorem fsEdit_confined {oldStr newStr : String} {replaceAll : Bool} (rooted : workspaceRoot s.disk cwd = .ok root)
    (ok : fsEdit host cwd s path oldStr newStr replaceAll = .ok reply) : Confined s root reply := by
  unfold fsEdit at ok
  obtain ⟨_, _, ok⟩ := bind_ok_iff.mp ok
  obtain ⟨at_, resolves, ok⟩ := bind_ok_iff.mp ok
  obtain ⟨⟨there, old⟩, second, ok⟩ := bind_ok_iff.mp ok
  obtain ⟨current, _, ok⟩ := bind_ok_iff.mp ok
  obtain ⟨_, _, ok⟩ := bind_ok_iff.mp ok
  obtain ⟨_, _, ok⟩ := bind_ok_iff.mp ok
  obtain ⟨_, _, ok⟩ := bind_ok_iff.mp ok
  obtain ⟨⟨written, disk⟩, stored, ok⟩ := bind_ok_iff.mp ok
  cases ok
  have read := required_ok_iff.mp second
  obtain rfl := readFile_resolved resolves read
  obtain ⟨rfl, inside, rfl⟩ := store_resolved read (required_ok_iff.mp stored)
  obtain ⟨root', rooted', under, _⟩ := resolve_ok resolves
  exact confined_put inside (root_unique rooted rooted' ▸ under)

/-- A place in the workspace, or a link out of it. -/
theorem inside_or_outside (rooted : workspaceRoot s.disk cwd = .ok root)
    (resolves : resolveUnderWorkspace s.disk cwd path false = .ok resolved)
    (leads : s.disk.resolve (Disk.spell resolved) = .found loc ∨ s.disk.resolve (Disk.spell resolved) = .missing loc) :
    root <+: loc ∨ LeadsOutside s.disk cwd path resolved loc := by
  obtain ⟨root', rooted', under, _⟩ := resolve_ok resolves
  rw [root_unique rooted rooted'] at under
  rcases leads_resolved resolves leads with rfl | link
  · exact .inl under
  · by_cases within : root <+: loc
    · exact .inl within
    · refine .inr ⟨resolves, link, leads, ?_⟩
      intro other same
      rw [root_unique rooted same]
      exact within

theorem leads_of_stored {f : Option Content → Content} {disk : Disk Content}
    (stored : s.disk.store (Disk.spell resolved) f = some (loc, disk)) :
    s.disk.resolve (Disk.spell resolved) = .found loc ∨ s.disk.resolve (Disk.spell resolved) = .missing loc := by
  rcases (Disk.store_cases stored).2.2 with ⟨found, _⟩ | ⟨missing, _⟩
  · exact .inl found
  · exact .inr missing

theorem not_dir_of_stored {f : Option Content → Content} {disk : Disk Content}
    (stored : s.disk.store (Disk.spell resolved) f = some (loc, disk)) : s.disk.get loc ≠ some .dir := by
  intro dir
  rcases (Disk.store_cases stored).2.2 with ⟨_, file⟩ | ⟨_, nothing⟩
  · unfold Disk.fileAt at file
    rw [dir] at file
    cases file
  · rw [dir] at nothing
    cases nothing

/-- What a path leads to can be stored to, unless it is a directory. -/
theorem store_leads (leads : s.disk.resolve (Disk.spell resolved) = .found loc ∨ s.disk.resolve (Disk.spell resolved) = .missing loc)
    (file : s.disk.get loc ≠ some .dir) (f : Option Content → Content) :
    s.disk.store (Disk.spell resolved) f = some (loc, s.disk.put loc (.file (f (s.disk.fileAt loc)))) := by
  have real := Disk.resolve_real s.disk (Disk.spell resolved)
  unfold Disk.store
  rcases leads with found | missing
  · rw [found] at real ⊢
    rcases real.2 with dir | ⟨old, here⟩
    · exact absurd dir file
    · dsimp only
      rw [Disk.fileAt_iff.mpr here]
      rfl
  · rw [missing] at real ⊢
    have nothing : s.disk.fileAt loc = none := by
      unfold Disk.fileAt
      rw [real.2.1]
    rw [nothing]

theorem unchanged_put {entry : Entry Content} (same : s.disk.get loc = some entry) (inside : loc ≠ []) (l : Loc) :
    (s.disk.put loc entry).get l = s.disk.get l := by
  rw [Disk.get_put inside]
  by_cases here : l = loc
  · rw [if_pos here,here,same]
  · rw [if_neg here]

theorem changed_put {entry : Entry Content} (other : s.disk.get loc ≠ some entry) (inside : loc ≠ []) :
    (s.disk.put loc entry).get loc ≠ s.disk.get loc := by
  rw [Disk.get_put inside,if_pos rfl]
  exact other.symm

theorem place_ne_nil (leads : s.disk.resolve (Disk.spell resolved) = .found loc ∨ s.disk.resolve (Disk.spell resolved) = .missing loc)
    (file : s.disk.get loc ≠ some .dir) : loc ≠ [] := by
  rintro rfl
  exact file rfl

theorem fsWrite_ok : fsWrite host cwd s path content = .ok reply ↔ ∃ resolved loc disk,
    resolveUnderWorkspace s.disk cwd path false = .ok resolved ∧ guardOverwrite host s resolved path = .ok () ∧
      s.disk.store (Disk.spell resolved) (fun _ => .text content) = some (loc, disk) ∧
        reply = ⟨.written path content.utf8ByteSize, [], [loc],
          recordFileState host { s with disk := disk } resolved content⟩ := by
  unfold fsWrite
  constructor
  · intro ok
    obtain ⟨resolved, resolves, ok⟩ := bind_ok_iff.mp ok
    obtain ⟨_, passed, ok⟩ := bind_ok_iff.mp ok
    obtain ⟨⟨loc, disk⟩, stored, ok⟩ := bind_ok_iff.mp ok
    cases ok
    exact ⟨resolved, loc, disk, resolves, passed, required_ok_iff.mp stored, rfl⟩
  · rintro ⟨resolved, loc, disk, resolves, passed, stored, rfl⟩
    rw [resolves,ok_bind,passed,ok_bind,stored]
    rfl

/-- The checks pass on a free place, and on a text that was observed as it is. -/
theorem guardOverwrite_ok (leads : s.disk.resolve (Disk.spell resolved) = .found loc ∨ s.disk.resolve (Disk.spell resolved) = .missing loc) :
    guardOverwrite host s resolved path = .ok () ↔ ∀ old, s.disk.fileAt loc = some old →
      ∃ current, old = .text current ∧ checkDrift host s resolved current = .fresh := by
  have read : s.disk.readFile (Disk.spell resolved) = (s.disk.fileAt loc).map (fun old => (loc, old)) := by
    have real := Disk.resolve_real s.disk (Disk.spell resolved)
    unfold Disk.readFile
    rcases leads with found | missing
    · rw [found]
    · rw [missing] at real ⊢
      unfold Disk.fileAt
      rw [real.2.1]
      rfl
  unfold guardOverwrite
  rw [read]
  cases s.disk.fileAt loc with
  | none => simp
  | some old =>
    cases old with
    | raw b => simp [Content.toText?]
    | text t =>
      simp only [Option.map_some,Content.toText?,required_some,ok_bind,guardDrift]
      cases check : checkDrift host s resolved t <;> simp [check]

theorem fsWrite_confined_iff (rooted : workspaceRoot s.disk cwd = .ok root) :
    (∀ reply, fsWrite host cwd s path content = .ok reply → Confined s root reply) ↔
      Harmless host cwd s (.fsWrite path content) := by
  constructor
  · intro confined resolved loc outside
    by_cases dir : s.disk.get loc = some .dir
    · exact .inl dir
    · refine .inr ?_
      have inside := place_ne_nil outside.leads dir
      by_contra harm
      -- The write goes through and changes what is there.
      have stored := store_leads outside.leads dir (fun _ => .text content)
      have passed : guardOverwrite host s resolved path = .ok () := by
        refine (guardOverwrite_ok outside.leads).mpr ?_
        intro old file
        by_contra refused
        refine harm ⟨old, Disk.fileAt_iff.mp file, .inr ?_⟩
        intro current same fresh
        exact refused ⟨current, same, fresh⟩
      have done := confined _ (fsWrite_ok.mpr ⟨resolved, loc, _, outside.resolves, passed, stored, rfl⟩)
      refine outside.outside root rooted (done.2 loc (changed_put ?_ inside))
      intro same
      exact harm ⟨_, same, .inl rfl⟩
  · intro harmless reply ok
    obtain ⟨resolved, loc, disk, resolves, passed, stored, rfl⟩ := fsWrite_ok.mp ok
    obtain ⟨inside, rfl, _⟩ := Disk.store_cases stored
    have leads := leads_of_stored stored
    rcases inside_or_outside rooted resolves leads with under | outside
    · exact confined_put inside under
    · rcases harmless resolved loc outside with dir | ⟨old, file, same | refused⟩
      · exact absurd dir (not_dir_of_stored stored)
      · subst same
        refine ⟨(fun _ member => nomatch member), ?_⟩
        intro l changed
        exact absurd (unchanged_put file inside l) changed
      · obtain ⟨current, same, fresh⟩ := (guardOverwrite_ok leads).mp passed old (Disk.fileAt_iff.mpr file)
        exact absurd fresh (refused current same)

theorem fsAppend_ok (ok : fsAppend host cwd s path content = .ok reply) : ∃ resolved loc disk,
    resolveUnderWorkspace s.disk cwd path false = .ok resolved ∧
      s.disk.store (Disk.spell resolved) (Content.append content) = some (loc, disk) ∧ reply.sources = [] ∧
        reply.session.disk = disk := by
  unfold fsAppend at ok
  obtain ⟨resolved, resolves, ok⟩ := bind_ok_iff.mp ok
  obtain ⟨⟨loc, disk⟩, stored, ok⟩ := bind_ok_iff.mp ok
  cases ok
  refine ⟨resolved, loc, disk, resolves, required_ok_iff.mp stored, rfl, ?_⟩
  dsimp only
  split <;> rfl

theorem fsAppend_of_store {disk : Disk Content} (resolves : resolveUnderWorkspace s.disk cwd path false = .ok resolved)
    (stored : s.disk.store (Disk.spell resolved) (Content.append content) = some (loc, disk)) :
    ∃ reply, fsAppend host cwd s path content = .ok reply := by
  unfold fsAppend
  rw [resolves,ok_bind,stored,required_some,ok_bind]
  exact ⟨_, rfl⟩

theorem append_eq_self {old : Content} : Content.append content (some old) = old ↔ content = "" := by
  cases old with
  | text t =>
    simp only [Content.append,Content.text.injEq]
    constructor
    · intro same
      have lengths := congrArg String.length same
      rw [String.length_append] at lengths
      exact String.length_eq_zero_iff.mp (by omega)
    · rintro rfl
      exact String.append_empty
  | raw b =>
    simp only [Content.append,Content.raw.injEq,List.append_right_eq_self]
    have empty : Host.utf8 "" = [] := by decide +kernel
    constructor
    · intro nothing
      exact toByteArray_toList_injective (nothing.trans empty.symm)
    · rintro rfl
      exact empty

theorem fsAppend_confined_iff (rooted : workspaceRoot s.disk cwd = .ok root) :
    (∀ reply, fsAppend host cwd s path content = .ok reply → Confined s root reply) ↔
      Harmless host cwd s (.fsAppend path content) := by
  constructor
  · intro confined resolved loc outside
    by_cases dir : s.disk.get loc = some .dir
    · exact .inl dir
    · refine .inr ?_
      have inside := place_ne_nil outside.leads dir
      by_contra harm
      have stored := store_leads outside.leads dir (Content.append content)
      obtain ⟨reply, ok⟩ := fsAppend_of_store outside.resolves stored
      obtain ⟨resolved', loc', disk, resolves, stored', _, same⟩ := fsAppend_ok ok
      rw [outside.resolves] at resolves
      cases resolves
      rw [stored] at stored'
      cases stored'
      have done := (confined reply ok).2 loc
      rw [same] at done
      refine outside.outside root rooted (done (changed_put ?_ inside))
      intro equal
      cases file : s.disk.fileAt loc with
      | none =>
        rw [Disk.fileAt_iff.mpr equal] at file
        cases file
      | some old =>
        rw [Disk.fileAt_iff.mp file,file] at equal
        have nothing := append_eq_self.mp (Entry.file.inj (Option.some.inj equal)).symm
        exact harm ⟨nothing, old, Disk.fileAt_iff.mp file⟩
  · intro harmless reply ok
    obtain ⟨resolved, loc, disk, resolves, stored, none_, same⟩ := fsAppend_ok ok
    obtain ⟨inside, rfl, _⟩ := Disk.store_cases stored
    unfold Confined
    rw [none_,same]
    refine ⟨(fun _ member => nomatch member), ?_⟩
    intro l changed
    rcases inside_or_outside rooted resolves (leads_of_stored stored) with under | outside
    · exact under_of_changed inside under changed
    · rcases harmless resolved loc outside with dir | ⟨rfl, old, file⟩
      · exact absurd dir (not_dir_of_stored stored)
      · rw [Disk.fileAt_iff.mpr file,append_eq_self.mpr rfl] at changed
        exact absurd (unchanged_put file inside l) changed

theorem readFile_of_fileAt {old : Content} (resolves : resolveUnderWorkspace s.disk cwd path true = .ok resolved)
    (file : s.disk.fileAt resolved = some old) : s.disk.readFile (Disk.spell resolved) = some (resolved, old) := by
  obtain ⟨root, _, _, whole, _⟩ := resolve_ok resolves
  have real := Disk.resolve_real s.disk (Disk.spell root ++ hopsOf path)
  rw [whole rfl] at real
  exact Disk.readFile_iff.mpr ⟨Disk.resolve_spell_self real, file⟩

theorem fsCopy_ok {source destination : String} : fsCopy cwd s source destination = .ok reply ↔ ∃ src dst old loc disk,
    resolveUnderWorkspace s.disk cwd source true = .ok src ∧ resolveUnderWorkspace s.disk cwd destination false = .ok dst ∧
      s.disk.fileAt src = some old ∧ s.disk.store (Disk.spell dst) (fun _ => copyOf s.disk src dst old) = some (loc, disk) ∧
        reply = ⟨.copied source destination, [], [loc], { s with disk := disk }⟩ := by
  unfold fsCopy
  constructor
  · intro ok
    obtain ⟨src, first, ok⟩ := bind_ok_iff.mp ok
    obtain ⟨dst, second, ok⟩ := bind_ok_iff.mp ok
    obtain ⟨⟨at_, old⟩, third, ok⟩ := bind_ok_iff.mp ok
    obtain ⟨⟨loc, disk⟩, stored, ok⟩ := bind_ok_iff.mp ok
    cases ok
    have read := required_ok_iff.mp third
    obtain rfl := readFile_resolved first read
    exact ⟨at_, dst, old, loc, disk, first, second, (Disk.readFile_iff.mp read).2, required_ok_iff.mp stored, rfl⟩
  · rintro ⟨src, dst, old, loc, disk, first, second, file, stored, rfl⟩
    rw [first,ok_bind,second,ok_bind,readFile_of_fileAt first file,required_some,ok_bind]
    dsimp only
    rw [stored]
    rfl

theorem fsCopy_confined_iff {source destination : String} (rooted : workspaceRoot s.disk cwd = .ok root) :
    (∀ reply, fsCopy cwd s source destination = .ok reply → Confined s root reply) ↔
      Harmless host cwd s (.fsCopy source destination) := by
  -- Out of the workspace the destination is not the source.
  have whole {src dst loc : Loc} {old : Content} (first : resolveUnderWorkspace s.disk cwd source true = .ok src)
      (outside : LeadsOutside s.disk cwd destination dst loc) : copyOf s.disk src dst old = old := by
    obtain ⟨root', rooted', under, _⟩ := resolve_ok first
    refine if_neg ?_
    intro found
    rcases outside.leads with here | free
    · rw [here] at found
      cases found
      exact outside.outside root' rooted' under
    · rw [free] at found
      cases found
  constructor
  · intro confined dst loc outside
    by_cases dir : s.disk.get loc = some .dir
    · exact .inl dir
    · refine .inr ?_
      intro src old first file
      have inside := place_ne_nil outside.leads dir
      by_contra harm
      have stored := store_leads outside.leads dir (fun _ => copyOf s.disk src dst old)
      have done := confined _ (fsCopy_ok.mpr ⟨src, dst, old, loc, _, first, outside.resolves, file, stored, rfl⟩)
      refine outside.outside root rooted (done.2 loc (changed_put ?_ inside))
      rw [whole first outside]
      intro same
      exact harm (Disk.fileAt_iff.mpr same)
  · intro harmless reply ok
    obtain ⟨src, dst, old, loc, disk, first, second, file, stored, rfl⟩ := fsCopy_ok.mp ok
    obtain ⟨inside, rfl, _⟩ := Disk.store_cases stored
    rcases inside_or_outside rooted second (leads_of_stored stored) with under | outside
    · exact confined_put inside under
    · rcases harmless dst loc outside with dir | same
      · exact absurd dir (not_dir_of_stored stored)
      · refine ⟨(fun _ member => nomatch member), ?_⟩
        intro l changed
        dsimp only at changed
        rw [whole first outside] at changed
        exact absurd (unchanged_put (Disk.fileAt_iff.mp (same src old first file)) inside l) changed

theorem fsDelete_confined (rooted : workspaceRoot s.disk cwd = .ok root) (ok : fsDelete cwd s path = .ok reply) :
    Confined s root reply := by
  unfold fsDelete at ok
  obtain ⟨resolved, resolves, ok⟩ := bind_ok_iff.mp ok
  cases ok
  obtain ⟨root', rooted', under, _⟩ := resolve_ok resolves
  rw [root_unique rooted rooted'] at under
  refine ⟨(fun _ member => nomatch member), ?_⟩
  intro l changed
  by_contra apart
  refine changed ?_
  rw [Disk.get_removeAll]
  exact if_neg (fun below => apart (under.trans below.1))

theorem fsMove_confined {source destination : String} (rooted : workspaceRoot s.disk cwd = .ok root)
    (ok : fsMove cwd s source destination = .ok reply) : Confined s root reply := by
  unfold fsMove at ok
  obtain ⟨src, first, ok⟩ := bind_ok_iff.mp ok
  obtain ⟨dst, second, ok⟩ := bind_ok_iff.mp ok
  obtain ⟨disk, renamed, ok⟩ := bind_ok_iff.mp ok
  cases ok
  obtain ⟨root', rooted', under, _⟩ := resolve_ok first
  obtain ⟨root'', rooted'', under', _, last⟩ := resolve_ok second
  rw [root_unique rooted rooted'] at under
  rw [root_unique rooted rooted''] at under'
  obtain ⟨parent, name, rfl, _⟩ := last rfl
  refine ⟨(fun _ member => nomatch member), ?_⟩
  intro l changed
  rcases Disk.rename_cases (required_ok_iff.mp renamed) with ⟨_, rfl⟩ | ⟨_, rfl, _⟩
  · exact absurd rfl changed
  · by_contra apart
    refine changed ?_
    rw [Disk.get_relocate (by simp),if_neg (fun below => apart (under'.trans below))]
    exact if_neg (fun below => apart (under.trans below.1))

/-- A call other than a search stays in the workspace exactly when no link does harm. -/
theorem call_confined_iff (rooted : workspaceRoot s.disk cwd = .ok root) (call : FileCall) :
    (∀ reply, call.run host cwd s = .ok reply → Confined s root reply) ↔ Harmless host cwd s call := by
  cases call with
  | fsRead path => exact ⟨fun _ => trivial, fun _ reply ok => fsRead_confined rooted ok⟩
  | fsReadLines path first last => exact ⟨fun _ => trivial, fun _ reply ok => fsReadLines_confined rooted ok⟩
  | fsWrite path content => exact fsWrite_confined_iff rooted
  | fsEdit path oldStr newStr replaceAll => exact ⟨fun _ => trivial, fun _ reply ok => fsEdit_confined rooted ok⟩
  | fsAppend path content => exact fsAppend_confined_iff rooted
  | fsCopy source destination => exact fsCopy_confined_iff rooted
  | fsMove source destination => exact ⟨fun _ => trivial, fun _ reply ok => fsMove_confined rooted ok⟩
  | fsDelete path => exact ⟨fun _ => trivial, fun _ reply ok => fsDelete_confined rooted ok⟩

end

/-- The paths a search comes to, from its start on. -/
inductive Reached (disk : Disk Content) (start : Loc) : Loc → Prop where
  | start : Reached disk start start
  | entry {path dir : Loc} {name : String} (before : Reached disk start path)
      (there : disk.resolve (Disk.spell path) = .found dir) (kind : disk.get dir = some .dir)
      (searched : path.getLast?.getD "" ∉ skipDirs) (listed : name ∈ disk.entries dir) : Reached disk start (path ++ [name])

/-- No link in a directory that the search comes to leads out of the workspace. -/
def LinksInside (disk : Disk Content) (root start : Loc) : Prop :=
  ∀ path dir name absolute target loc, Reached disk start path → disk.resolve (Disk.spell path) = .found dir →
    disk.get dir = some .dir → path.getLast?.getD "" ∉ skipDirs → name ∈ disk.entries dir →
      disk.get (dir ++ [name]) = some (.link absolute target) → disk.resolve (Disk.spell (dir ++ [name])) = .found loc →
        root <+: loc

section

variable {disk : Disk Content} {root start path loc : Loc}

theorem Reached.inside (reached : Reached disk start path) (links : LinksInside disk root start)
    (first : ∀ loc, disk.resolve (Disk.spell start) = .found loc → root <+: loc)
    (found : disk.resolve (Disk.spell path) = .found loc) : root <+: loc := by
  induction reached generalizing loc with
  | start => exact first loc found
  | @entry path dir name before there kind searched listed ih =>
    rw [Disk.spell,List.map_append] at found
    rcases Disk.resolve_concat there kind found with rfl | ⟨absolute, target, link, leads⟩
    · exact (ih there).trans (List.prefix_append dir [name])
    · exact links path dir name absolute target loc before there kind searched listed link leads

/-- Every path in the queue was reached, and every source is where one of them leads. -/
structure Search.Sound (disk : Disk Content) (start : Loc) (q : Search) : Prop where
  queue : ∀ path ∈ q.queue, Reached disk start path
  sources : ∀ loc ∈ q.sources, ∃ path, Reached disk start path ∧ disk.resolve (Disk.spell path) = .found loc

theorem Search.Sound.step {q : Search} (sound : q.Sound disk start) (matched : String → Bool) (maxResults : Nat) :
    match q.step disk matched maxResults with
    | .inl next => next.Sound disk start
    | .inr ended => ended.1.Sound disk start := by
  unfold Search.step
  cases queue : q.queue with
  | nil => exact sound
  | cons path rest =>
    have reached : Reached disk start path := sound.queue path (by rw [queue]; exact List.mem_cons_self)
    have later : ∀ other ∈ rest, Reached disk start other := fun other member =>
      sound.queue other (by rw [queue]; exact List.mem_cons_of_mem path member)
    have skip : ({ q with queue := rest } : Search).Sound disk start := ⟨later, sound.sources⟩
    dsimp only
    cases place : disk.resolve (Disk.spell path) with
    | missing loc => exact skip
    | lost => exact skip
    | found loc =>
      dsimp only
      cases kind : disk.get loc with
      | none => exact skip
      | some entry =>
        cases entry with
        | link absolute target => exact skip
        | dir =>
          by_cases left : path.getLast?.getD "" ∈ skipDirs
          · simp only [if_pos left]
            exact skip
          · simp only [if_neg left]
            refine ⟨?_, sound.sources⟩
            intro other member
            rcases List.mem_append.mp member with old | new
            · exact later other old
            · obtain ⟨name, listed, rfl⟩ := List.mem_map.mp new
              exact .entry reached place kind left listed
        | file content =>
          dsimp only
          by_cases large : content.len > 256 * 1024
          · simp only [if_pos large]
            exact skip
          · simp only [if_neg large]
            by_cases many : q.visitedFiles + 1 > 2000
            · simp only [if_pos many]
              exact skip
            · simp only [if_neg many]
              cases content with
              | raw bytes => exact ⟨later, sound.sources⟩
              | text text =>
                dsimp only
                have read (hits : List SearchHit) : (Search.mk rest (q.results ++ hits)
                    (if hits = [] then q.sources else q.sources ++ [loc]) (q.visitedFiles + 1)).Sound disk start := by
                  refine ⟨later, ?_⟩
                  intro source member
                  dsimp only at member
                  split at member
                  · exact sound.sources source member
                  · rcases List.mem_append.mp member with old | new
                    · exact sound.sources source old
                    · rw [List.mem_singleton.mp new]
                      exact ⟨path, reached, place⟩
                split
                · rename_i next same
                  split at same
                  · cases same
                  · cases same
                    exact read _
                · rename_i ended same
                  split at same
                  · cases same
                    exact read _
                  · cases same

theorem Search.Sound.run {q : Search} {matched : String → Bool} {maxResults turns : Nat} {result : Search × Bool}
    (sound : q.Sound disk start)
    (ended : q.run disk matched maxResults turns = some result) : result.1.Sound disk start := by
  induction turns generalizing q with
  | zero => cases ended
  | succ turns ih =>
    have kept := sound.step matched maxResults
    rw [Search.run] at ended
    cases taken : q.step disk matched maxResults with
    | inl next =>
      rw [taken] at ended kept
      exact ih kept ended
    | inr last =>
      rw [taken] at ended kept
      cases ended
      exact kept

theorem search_confined {cwd : List Hop} {s : Session} {lower : String → String} {turns : Nat} {query : String}
    {path : Option String} {maxResults : Option Nat} {caseSensitive : Option Bool} {reply : Reply}
    (rooted : workspaceRoot s.disk cwd = .ok root) (resolves : resolveUnderWorkspace s.disk cwd (path.getD ".") true = .ok start)
    (links : LinksInside s.disk root start)
    (ended : fsSearch cwd lower turns s query path maxResults caseSensitive = some (.ok reply)) : Confined s root reply := by
  unfold fsSearch at ended
  split at ended
  · cases ended
  rw [resolves] at ended
  obtain ⟨result, ran, same⟩ := Option.map_eq_some_iff.mp ended
  cases same
  have sound : (Search.mk [start] [] [] 0).Sound s.disk start := by
    refine ⟨?_, (fun _ member => nomatch member)⟩
    intro other member
    rw [List.mem_singleton.mp member]
    exact .start
  have first (loc : Loc) (found : s.disk.resolve (Disk.spell start) = .found loc) : root <+: loc := by
    obtain ⟨root', rooted', under, whole, _⟩ := resolve_ok resolves
    have real := Disk.resolve_real s.disk (Disk.spell root' ++ hopsOf (path.getD "."))
    rw [whole rfl] at real
    rw [Disk.resolve_spell_self real] at found
    cases found
    exact root_unique rooted rooted' ▸ under
  refine ⟨?_, fun l changed => absurd rfl changed⟩
  intro loc member
  obtain ⟨at_, reached, found⟩ := (sound.run ran).sources loc member
  exact reached.inside links first found

end

section

variable {host : Host} {cwd : List Hop} {s : Session} {root : Loc}

end

/-- A workspace with a file and a link to a free name outside. -/
def linkedDisk : Disk Content := [
  (["ws"], .dir), (["ws", "a.txt"], .file (.text "one")), (["etc"], .dir),
  (["ws", "out.txt"], .link true [.name "etc", .name "new.txt"])]

end Zaion.Tools
