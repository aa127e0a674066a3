import Zaion.Lib.Steps
import Zaion.Tools.Confined

/-! What a session has seen. Beside the table of hashes, a run keeps for each file the content
that a read tool last returned or a write tool last produced; files may change from outside
between any two calls. -/
namespace Zaion.Tools

open Lib

structure Watched where
  session : Session
  observed : Loc → Option Content

inductive Act where
  | call (cwd : List Hop) (call : FileCall)
  | edit (disk : Disk Content)

/-- The text a read tool returned. -/
def Answer.returned : Answer → Option String
  | .read content _ => some content
  | .readLines _ _ _ _ content => some content
  | _ => none

/-- A part of a file is not its content: only a read that returned all of it counts. -/
def notice (s : Session) (reply : Reply) (observed : Loc → Option Content) (loc : Loc) : Option Content :=
  if loc ∈ reply.sources then
    match reply.answer.returned with
    | some text => if s.disk.fileAt loc = some (.text text) then some (.text text) else observed loc
    | none => observed loc
  else if loc ∈ reply.written then (reply.session.disk.fileAt loc).or (observed loc)
  else observed loc

section

variable (host : Host)

def Watched.step (w : Watched) : Act → Option Watched
  | .edit disk => some { w with session := { w.session with disk := disk } }
  | .call cwd call =>
    match call.run host cwd w.session with
    | .error _ => some w
    | .ok reply => some ⟨reply.session, notice w.session reply w.observed⟩

def Watched.start (disk : Disk Content) : Watched := ⟨⟨disk, []⟩, fun _ => none⟩

/-- The range takes in every line, and the text is its lines with a newline between two. -/
def Whole (first last : Option Nat) (text : String) : Prop :=
  first.getD 1 ≤ 1 ∧ (lines text).length ≤ last.getD (lines text).length ∧ "\n".intercalate (lines text) = text

/-- No other content stands at the place, and none but the arriving one is recorded for it. -/
structure Free (s : Session) (loc : Loc) (arriving : Content) : Prop where
  there : ∀ old, s.disk.fileAt loc = some old → old = arriving
  recorded : ∀ hash, s.readStates.lookup loc = some hash →
    ∃ text, arriving = .text text ∧ hash = host.sha256Hex (Host.utf8 text)

/-- A call the checks of the tools are enough for. -/
def Careful (s : Session) (cwd : List Hop) : FileCall → Prop
  | .fsReadLines path first last => ∀ resolved loc text, readSmall cwd s path = .ok (resolved, loc, text) →
      Whole first last text ∨ s.readStates.lookup loc = some (host.sha256Hex (Host.utf8 text))
  | .fsEdit path oldStr _ false => ∀ resolved text, resolveUnderWorkspace s.disk cwd path true = .ok resolved →
      s.disk.fileAt resolved = some (.text text) → matchCount oldStr.toList text.toList = 1 →
        overlapping oldStr.toList text.toList = false
  | .fsAppend path _ => ∀ resolved, resolveUnderWorkspace s.disk cwd path false = .ok resolved →
      guardOverwrite host s resolved path = .ok ()
  | .fsCopy source destination => ∀ src dst loc content, resolveUnderWorkspace s.disk cwd source true = .ok src →
      resolveUnderWorkspace s.disk cwd destination false = .ok dst → s.disk.fileAt src = some content →
        (s.disk.resolve (Disk.spell dst) = .found loc ∨ s.disk.resolve (Disk.spell dst) = .missing loc) →
          Free host s loc (copyOf s.disk src dst content)
  | .fsMove source destination => ∀ src dst below content, resolveUnderWorkspace s.disk cwd source true = .ok src →
      resolveUnderWorkspace s.disk cwd destination false = .ok dst → src ≠ dst →
        s.disk.fileAt (src ++ below) = some content → Free host s (dst ++ below) content
  | _ => True

def CarefulAct (w : Watched) : Act → Prop
  | .edit _ => True
  | .call cwd call => Careful host w.session cwd call

/-- The one occurrence of a string in a file is replaced, and nothing else on the disk. -/
def ReplacesOne (before after : Disk Content) (oldStr newStr : String) : Prop :=
  ∃ loc front back, before.fileAt loc = some (.text (String.ofList (front ++ oldStr.toList ++ back))) ∧
    after.fileAt loc = some (.text (String.ofList (front ++ newStr.toList ++ back))) ∧
      (∀ i, OccursAt oldStr.toList (front ++ oldStr.toList ++ back) i ↔ i = front.length) ∧
        ∀ l, l ≠ loc → after.get l = before.get l

/-- What a call may do: it replaces what was observed, changes nothing when it is rejected, and
as an edit replaces the only occurrence. -/
structure NotBlind (w : Watched) (cwd : List Hop) (call : FileCall) : Prop where
  replaced : ∀ reply, call.run host cwd w.session = .ok reply → ∀ loc old new, w.session.disk.fileAt loc = some old →
    reply.session.disk.fileAt loc = some new → new ≠ old → w.observed loc = some old
  rejected : ∀ e, call.run host cwd w.session = .error e → w.step host (.call cwd call) = some w
  edited : ∀ path oldStr newStr, call = .fsEdit path oldStr newStr false → ∀ reply,
    call.run host cwd w.session = .ok reply → ReplacesOne w.session.disk reply.session.disk oldStr newStr

/-- Every recorded hash is that of the text observed there. -/
def Known (w : Watched) : Prop := ∀ loc hash, w.session.readStates.lookup loc = some hash →
  ∃ text, w.observed loc = some (.text text) ∧ hash = host.sha256Hex (Host.utf8 text)

/-- An accepted call keeps what is recorded true, and replaces only what was observed. -/
structure Kept (w : Watched) (reply : Reply) : Prop where
  known : Known host ⟨reply.session, notice w.session reply w.observed⟩
  replaced : ∀ loc old new, w.session.disk.fileAt loc = some old → reply.session.disk.fileAt loc = some new →
    new ≠ old → w.observed loc = some old

end

section

variable {host : Host} {cwd : List Hop} {w : Watched} {path content : String} {resolved loc : Loc} {reply : Reply}

theorem stateKey_found {disk : Disk Content} (found : disk.resolve (Disk.spell resolved) = .found loc) :
    stateKey disk resolved = loc := by
  unfold stateKey Disk.canonicalize
  rw [found]
  rfl

theorem checkDrift_fresh {s : Session} {current : String} (fresh : checkDrift host s resolved current = .fresh) :
    s.readStates.lookup (stateKey s.disk resolved) = some (host.sha256Hex (Host.utf8 current)) := by
  unfold checkDrift at fresh
  split at fresh
  · cases fresh
  · rename_i recorded found
    split at fresh
    · rename_i same
      rw [found,same]
    · cases fresh

/-- A file that passes the check holds what was observed. -/
theorem Known.observed_of_fresh (known : Known host w) (distinct : host.CollisionFree) {current : String}
    (found : w.session.disk.resolve (Disk.spell resolved) = .found loc)
    (fresh : checkDrift host w.session resolved current = .fresh) : w.observed loc = some (.text current) := by
  have recorded := checkDrift_fresh fresh
  rw [stateKey_found found] at recorded
  obtain ⟨text, seen, same⟩ := known loc _ recorded
  have equal : current = text := toByteArray_toList_injective (distinct same)
  rw [equal]
  exact seen

/-- One more file recorded as it was observed. -/
theorem Known.record (known : Known host w) {observed : Loc → Option Content} {disk : Disk Content} {text : String}
    (here : observed loc = some (.text text)) (others : ∀ l, l ≠ loc → observed l = w.observed l) :
    Known host ⟨⟨disk, (loc, host.sha256Hex (Host.utf8 text)) :: w.session.readStates⟩, observed⟩ := by
  intro l hash found
  dsimp only at found ⊢
  rw [List.lookup_cons] at found
  by_cases same : l = loc
  · subst same
    rw [beq_self_eq_true] at found
    exact ⟨text, here, (Option.some.inj found).symm⟩
  · rw [beq_false_of_ne same] at found
    rw [others l same]
    exact known l hash found

theorem notice_put {answer : Answer} {states : List (Loc × String)} {c : Content} (inside : loc ≠ []) (l : Loc) :
    notice w.session ⟨answer, [], [loc], ⟨w.session.disk.put loc (.file c), states⟩⟩ w.observed l =
      if l = loc then some c else w.observed l := by
  unfold notice
  by_cases same : l = loc
  · simp [same,Disk.fileAt_put inside]
  · simp [same]

/-- Where a file is put, only its own content is replaced. -/
theorem replaced_put {c old new : Content} {l : Loc} (inside : loc ≠ [])
    (seen : ∀ old, w.session.disk.fileAt loc = some old → old ≠ c → w.observed loc = some old)
    (before : w.session.disk.fileAt l = some old) (after : (w.session.disk.put loc (.file c)).fileAt l = some new)
    (changed : new ≠ old) : w.observed l = some old := by
  rw [Disk.fileAt_put inside] at after
  by_cases same : l = loc
  · subst same
    rw [if_pos rfl] at after
    cases after
    exact seen old before changed.symm
  · rw [if_neg same,before] at after
    exact absurd (Option.some.inj after).symm changed

/-- A text that is written and recorded where nothing unseen was. -/
theorem Known.kept_put (known : Known host w) {answer : Answer} {text : String} (inside : loc ≠ [])
    (seen : ∀ old, w.session.disk.fileAt loc = some old → w.observed loc = some old) :
    Kept host w ⟨answer, [], [loc], ⟨w.session.disk.put loc (.file (.text text)),
      (loc, host.sha256Hex (Host.utf8 text)) :: w.session.readStates⟩⟩ where
  known := by
    refine known.record ?_ ?_
    · rw [notice_put inside,if_pos rfl]
    · intro l other
      rw [notice_put inside,if_neg other]
  replaced := by
    intro l old new before after changed
    exact replaced_put inside (fun old file _ => seen old file) before after changed

theorem record_stored {s : Session} {disk : Disk Content} {f : Option Content → Content} {text : String}
    (stored : s.disk.store (Disk.spell resolved) f = some (loc, disk)) :
    recordFileState host { s with disk := disk } resolved text =
      ⟨disk, (loc, host.sha256Hex (Host.utf8 text)) :: s.readStates⟩ := by
  unfold recordFileState
  rw [stateKey_found (Disk.resolve_stored stored)]

/-- What passes the checks before an overwrite was observed as it is. -/
theorem Known.observed_of_guard (known : Known host w) (distinct : host.CollisionFree) {disk : Disk Content}
    {f : Option Content → Content} {old : Content} (passed : guardOverwrite host w.session resolved path = .ok ())
    (stored : w.session.disk.store (Disk.spell resolved) f = some (loc, disk)) (file : w.session.disk.fileAt loc = some old) :
    w.observed loc = some old ∧ ∃ text, old = .text text := by
  obtain ⟨current, rfl, fresh⟩ := (guardOverwrite_ok (leads_of_stored stored)).mp passed old file
  rcases (Disk.store_cases stored).2.2 with ⟨found, _⟩ | ⟨_, free⟩
  · exact ⟨known.observed_of_fresh distinct found fresh, current, rfl⟩
  · rw [Disk.fileAt_iff.mp file] at free
    cases free

theorem fsWrite_kept (known : Known host w) (distinct : host.CollisionFree)
    (ok : fsWrite host cwd w.session path content = .ok reply) : Kept host w reply := by
  obtain ⟨resolved, loc, disk, _, passed, stored, rfl⟩ := fsWrite_ok.mp ok
  rw [record_stored stored]
  obtain ⟨inside, same, _⟩ := Disk.store_cases stored
  rw [same]
  exact known.kept_put inside (fun old file => (known.observed_of_guard distinct passed stored file).1)

theorem guardDrift_ok {s : Session} {current : String} (passed : guardDrift host s resolved path current = .ok ()) :
    checkDrift host s resolved current = .fresh := by
  unfold guardDrift at passed
  split at passed
  · assumption
  · cases passed
  · cases passed

/-- The text an edit leaves. -/
def edit (oldStr newStr : String) (replaceAll : Bool) (current : String) : String :=
  String.ofList (if replaceAll then Lib.replaceAll oldStr.toList newStr.toList current.toList
    else replaceFirst oldStr.toList newStr.toList current.toList)

theorem fsEdit_ok {s : Session} {oldStr newStr : String} {replaceAll : Bool}
    (ok : fsEdit host cwd s path oldStr newStr replaceAll = .ok reply) : ∃ loc current disk,
    resolveUnderWorkspace s.disk cwd path true = .ok loc ∧ s.disk.resolve (Disk.spell loc) = .found loc ∧
      s.disk.fileAt loc = some (.text current) ∧ checkDrift host s loc current = .fresh ∧
        (replaceAll = false → matchCount oldStr.toList current.toList = 1) ∧
          s.disk.store (Disk.spell loc) (fun _ => .text (edit oldStr newStr replaceAll current)) = some (loc, disk) ∧
            reply.sources = [] ∧ reply.written = [loc] ∧
              reply.session = recordFileState host { s with disk := disk } loc (edit oldStr newStr replaceAll current) := by
  unfold fsEdit at ok
  obtain ⟨_, _, ok⟩ := bind_ok_iff.mp ok
  obtain ⟨at_, resolves, ok⟩ := bind_ok_iff.mp ok
  obtain ⟨⟨there, old⟩, second, ok⟩ := bind_ok_iff.mp ok
  obtain ⟨current, decoded, ok⟩ := bind_ok_iff.mp ok
  obtain ⟨_, passed, ok⟩ := bind_ok_iff.mp ok
  obtain ⟨_, some_, ok⟩ := bind_ok_iff.mp ok
  obtain ⟨_, one, ok⟩ := bind_ok_iff.mp ok
  obtain ⟨⟨written, disk⟩, stored, ok⟩ := bind_ok_iff.mp ok
  cases ok
  have read := required_ok_iff.mp second
  obtain rfl := readFile_resolved resolves read
  have kept := required_ok_iff.mp stored
  obtain ⟨rfl, _, _⟩ := store_resolved read kept
  obtain ⟨found, file⟩ := Disk.readFile_iff.mp read
  have text : old = .text current := by
    have decoded := required_ok_iff.mp decoded
    cases old with
    | text t =>
      cases decoded
      rfl
    | raw b => cases decoded
  refine ⟨written, current, disk, resolves, found, text ▸ file, guardDrift_ok passed, ?_, kept, rfl, rfl, rfl⟩
  rintro rfl
  have positive := ensure_ok_iff.mp some_
  have atMost := ensure_ok_iff.mp one
  by_contra other
  exact atMost ⟨by omega, rfl⟩

theorem fsEdit_kept {oldStr newStr : String} {replaceAll : Bool} (known : Known host w) (distinct : host.CollisionFree)
    (ok : fsEdit host cwd w.session path oldStr newStr replaceAll = .ok reply) : Kept host w reply := by
  obtain ⟨loc, current, disk, _, found, file, fresh, _, stored, sources, written, after⟩ := fsEdit_ok ok
  obtain ⟨inside, same, _⟩ := Disk.store_cases stored
  obtain ⟨answer, _, _, _⟩ := reply
  dsimp only at sources written after
  subst sources written after
  rw [record_stored stored,same]
  refine known.kept_put inside ?_
  intro old here
  rw [file] at here
  cases here
  exact known.observed_of_fresh distinct found fresh

/-- An edit that nothing overlaps replaces the one occurrence there is. -/
theorem fsEdit_replacesOne {oldStr newStr : String} (careful : Careful host w.session cwd (.fsEdit path oldStr newStr false))
    (ok : fsEdit host cwd w.session path oldStr newStr false = .ok reply) :
    ReplacesOne w.session.disk reply.session.disk oldStr newStr := by
  obtain ⟨loc, current, disk, resolves, _, file, _, one, stored, _, _, after⟩ := fsEdit_ok ok
  obtain ⟨inside, same, _⟩ := Disk.store_cases stored
  obtain ⟨front, back, split, replaced, only⟩ := unique_of_matchCount (one rfl)
    (careful loc current resolves file (one rfl)) newStr.toList
  have here : current = String.ofList (front ++ oldStr.toList ++ back) := by
    rw [← split,String.ofList_toList]
  have left : edit oldStr newStr false current = String.ofList (front ++ newStr.toList ++ back) := congrArg String.ofList replaced
  rw [split] at only
  rw [after,record_stored stored,same]
  refine ⟨loc, front, back, here ▸ file, ?_, only, ?_⟩
  · rw [Disk.fileAt_put inside,if_pos rfl,left]
  · intro l other
    rw [Disk.get_put inside,if_neg other]

/-- A read leaves every file as it is, and may record a text that it returned or that was observed before. -/
theorem Known.kept_read (known : Known host w) {answer : Answer} {text part : String}
    (resolves : resolveUnderWorkspace w.session.disk cwd path true = .ok loc)
    (file : w.session.disk.fileAt loc = some (.text text)) (back : answer.returned = some part)
    (seen : part = text ∨ w.observed loc = some (.text text)) :
    Kept host w ⟨answer, [loc], [], recordFileState host w.session loc text⟩ := by
  have key := stateKey_found (Disk.readFile_iff.mp (readFile_of_fileAt resolves file)).1
  refine ⟨?_, ?_⟩
  · unfold recordFileState
    rw [key]
    refine known.record ?_ ?_
    · simp only [notice,List.mem_singleton,if_true,back,file]
      by_cases all : part = text
      · rw [all,if_pos rfl]
      · rw [if_neg (fun same => all (Content.text.inj (Option.some.inj same)).symm)]
        exact seen.resolve_left all
    · intro l other
      simp [notice,other]
  · intro l old new before after changed
    exact absurd (Option.some.inj (before.symm.trans after)).symm changed

theorem fsRead_kept (known : Known host w) (ok : fsRead host cwd w.session path = .ok reply) : Kept host w reply := by
  unfold fsRead at ok
  obtain ⟨⟨resolved, loc, text⟩, read, ok⟩ := bind_ok_iff.mp ok
  cases ok
  obtain ⟨resolves, rfl, file⟩ := readSmall_ok read
  exact known.kept_read resolves file rfl (.inl rfl)

theorem lines_whole {first last : Option Nat} {text : String} (whole : Whole first last text) :
    (if max (first.getD 1) 1 > (lines text).length ∨ max (first.getD 1) 1 > min (last.getD (lines text).length) (lines text).length
      then "" else "\n".intercalate (((lines text).take (min (last.getD (lines text).length) (lines text).length)).drop
        (max (first.getD 1) 1 - 1))) = text := by
  obtain ⟨low, high, joined⟩ := whole
  have start : max (first.getD 1) 1 = 1 := by omega
  have stop : min (last.getD (lines text).length) (lines text).length = (lines text).length := by omega
  rw [start,stop]
  by_cases empty : lines text = []
  · rw [empty] at joined ⊢
    exact joined
  · have positive := List.length_pos_iff.mpr empty
    rw [if_neg (by omega),List.take_length]
    exact joined

theorem fsReadLines_kept {first last : Option Nat} (known : Known host w) (distinct : host.CollisionFree)
    (careful : Careful host w.session cwd (.fsReadLines path first last))
    (ok : fsReadLines host cwd w.session path first last = .ok reply) : Kept host w reply := by
  unfold fsReadLines at ok
  obtain ⟨⟨resolved, loc, text⟩, read, ok⟩ := bind_ok_iff.mp ok
  cases ok
  obtain ⟨resolves, rfl, file⟩ := readSmall_ok read
  refine known.kept_read resolves file rfl ?_
  rcases careful loc loc text read with whole | recorded
  · exact .inl (lines_whole whole)
  · obtain ⟨seen, observed, same⟩ := known loc _ recorded
    have equal : text = seen := toByteArray_toList_injective (distinct same)
    exact .inr (equal ▸ observed)

theorem fsAppend_kept (known : Known host w) (distinct : host.CollisionFree)
    (careful : Careful host w.session cwd (.fsAppend path content))
    (ok : fsAppend host cwd w.session path content = .ok reply) : Kept host w reply := by
  unfold fsAppend at ok
  obtain ⟨resolved, resolves, ok⟩ := bind_ok_iff.mp ok
  obtain ⟨⟨loc, disk⟩, stored, ok⟩ := bind_ok_iff.mp ok
  cases ok
  have stored := required_ok_iff.mp stored
  obtain ⟨inside, same, _⟩ := Disk.store_cases stored
  have seen (old : Content) (file : w.session.disk.fileAt loc = some old) :=
    known.observed_of_guard distinct (careful resolved resolves) stored file
  -- A new file and one that was observed hold a text afterwards.
  obtain ⟨full, text⟩ : ∃ full, Content.append content (w.session.disk.fileAt loc) = .text full := by
    cases file : w.session.disk.fileAt loc with
    | none => exact ⟨content, rfl⟩
    | some old =>
      obtain ⟨_, before, rfl⟩ := seen old file
      exact ⟨before ++ content, rfl⟩
  rw [text] at same
  have read : disk.readFile (Disk.spell resolved) = some (loc, .text full) := by
    refine Disk.readFile_iff.mpr ⟨Disk.resolve_stored stored, ?_⟩
    rw [same,Disk.fileAt_put inside,if_pos rfl]
  simp only [read]
  rw [record_stored stored,same]
  exact known.kept_put inside (fun old file => (seen old file).1)

theorem fsCopy_kept {source destination : String} (known : Known host w)
    (careful : Careful host w.session cwd (.fsCopy source destination))
    (ok : fsCopy cwd w.session source destination = .ok reply) : Kept host w reply := by
  obtain ⟨src, dst, old, loc, disk, first, second, file, stored, rfl⟩ := fsCopy_ok.mp ok
  obtain ⟨inside, rfl, _⟩ := Disk.store_cases stored
  have free := careful src dst loc old first second file (leads_of_stored stored)
  refine ⟨?_, ?_⟩
  · intro l hash found
    dsimp only
    rw [notice_put inside]
    by_cases same : l = loc
    · subst same
      obtain ⟨text, arriving, equal⟩ := free.recorded hash found
      rw [if_pos rfl,arriving]
      exact ⟨text, rfl, equal⟩
    · rw [if_neg same]
      exact known l hash found
  · intro l before_ after_ before after changed
    refine replaced_put inside ?_ before after changed
    intro other there unlike
    exact absurd (free.there other there) unlike

theorem fsDelete_kept (known : Known host w) (ok : fsDelete cwd w.session path = .ok reply) : Kept host w reply := by
  unfold fsDelete at ok
  obtain ⟨resolved, _, ok⟩ := bind_ok_iff.mp ok
  cases ok
  refine ⟨?_, ?_⟩
  · intro l hash found
    simp only [notice,List.not_mem_nil,if_false]
    exact known l hash found
  · intro l old new before after changed
    rw [Disk.fileAt_iff,Disk.get_removeAll] at after
    split at after
    · cases after
    · rw [Disk.fileAt_iff.mp before] at after
      cases after
      exact absurd rfl changed

theorem fsMove_kept {source destination : String} (known : Known host w)
    (careful : Careful host w.session cwd (.fsMove source destination))
    (ok : fsMove cwd w.session source destination = .ok reply) : Kept host w reply := by
  unfold fsMove at ok
  obtain ⟨src, first, ok⟩ := bind_ok_iff.mp ok
  obtain ⟨dst, second, ok⟩ := bind_ok_iff.mp ok
  obtain ⟨disk, renamed, ok⟩ := bind_ok_iff.mp ok
  cases ok
  have renamed := required_ok_iff.mp renamed
  rcases Disk.rename_cases renamed with ⟨itself, rfl⟩ | ⟨other, same, _⟩
  · refine ⟨?_, ?_⟩
    · intro l hash found
      simp only [notice,if_pos itself,List.not_mem_nil,if_false]
      exact known l hash found
    · intro l old new before after changed
      exact absurd (Option.some.inj (before.symm.trans after)).symm changed
  · obtain ⟨_, _, _, _, last⟩ := resolve_ok second
    obtain ⟨parent, name, spelled, _⟩ := last rfl
    have inside : dst ≠ [] := by
      rw [spelled]
      simp
    have fileAt (l : Loc) : disk.fileAt l = if dst <+: l then w.session.disk.fileAt (src ++ l.drop dst.length)
        else if src <+: l then none else w.session.disk.fileAt l := by
      rw [same]
      exact Disk.fileAt_relocate (Disk.source_ne_nil renamed other) inside
    have arrives {below : Loc} {content : Content} (file : disk.fileAt (dst ++ below) = some content) :
        Free host w.session (dst ++ below) content := by
      rw [fileAt,if_pos (List.prefix_append dst below),List.drop_left] at file
      exact careful src dst below content first second other file
    refine ⟨?_, ?_⟩
    · intro l hash found
      simp only [notice,if_neg other,List.not_mem_nil,if_false]
      split
      · rename_i arrived
        obtain ⟨below, rfl⟩ := of_decide_eq_true (List.mem_filter.mp arrived).2
        cases file : disk.fileAt (dst ++ below) with
        | none =>
          rw [Option.none_or]
          exact known _ hash found
        | some content =>
          obtain ⟨text, rfl, equal⟩ := (arrives file).recorded hash found
          exact ⟨text, rfl, equal⟩
      · exact known l hash found
    · intro l old new before after changed
      by_cases under : dst <+: l
      · obtain ⟨below, rfl⟩ := under
        exact absurd ((arrives after).there old before).symm changed
      · rw [fileAt,if_neg under] at after
        split at after
        · cases after
        · rw [before] at after
          exact absurd (Option.some.inj after).symm changed

theorem call_kept (known : Known host w) (distinct : host.CollisionFree) (call : FileCall)
    (careful : Careful host w.session cwd call) (ok : call.run host cwd w.session = .ok reply) : Kept host w reply := by
  cases call with
  | fsRead path => exact fsRead_kept known ok
  | fsReadLines path first last => exact fsReadLines_kept known distinct careful ok
  | fsWrite path content => exact fsWrite_kept known distinct ok
  | fsEdit path oldStr newStr replaceAll => exact fsEdit_kept known distinct ok
  | fsAppend path content => exact fsAppend_kept known distinct careful ok
  | fsCopy source destination => exact fsCopy_kept known careful ok
  | fsMove source destination => exact fsMove_kept known careful ok
  | fsDelete path => exact fsDelete_kept known ok

theorem step_known (distinct : host.CollisionFree) {next : Watched} {act : Act} (known : Known host w)
    (careful : CarefulAct host w act) (taken : w.step host act = some next) : Known host next := by
  cases act with
  | edit disk =>
    cases taken
    exact known
  | call cwd call =>
    cases ran : call.run host cwd w.session with
    | error e =>
      rw [Watched.step,ran] at taken
      cases taken
      exact known
    | ok reply =>
      rw [Watched.step,ran] at taken
      cases taken
      exact (call_kept known distinct call careful ran).known

theorem call_notBlind (known : Known host w) (distinct : host.CollisionFree) (call : FileCall)
    (careful : Careful host w.session cwd call) : NotBlind host w cwd call where
  replaced := fun _ ok => (call_kept known distinct call careful ok).replaced
  rejected := by
    intro e refused
    rw [Watched.step,refused]
  edited := by
    rintro path oldStr newStr rfl reply ok
    exact fsEdit_replacesOne careful ok

/-- In every run of the tools with changes from outside between them, from any disk: as long as
the calls are careful, none of them is blind. -/
theorem no_blind_overwrite (distinct : host.CollisionFree) (disk : Disk Content) (acts : List Act)
    (careful : Meets (Watched.step host) (Watched.start disk) (CarefulAct host) acts) :
    ∀ before cwd call after w, acts = before ++ .call cwd call :: after →
      steps (Watched.step host) (Watched.start disk) before = some w → NotBlind host w cwd call := by
  intro before cwd call after w split run
  have first : Known host (Watched.start disk) := fun _ _ found => nomatch found
  have earlier : Meets (Watched.step host) (Watched.start disk) (CarefulAct host) before := Meets.left (split ▸ careful)
  have known := earlier.invariant run first (fun _ _ _ here good taken => step_known distinct here good taken)
  exact call_notBlind known distinct call (careful before _ after w split run)

end

def threeFiles : Disk Content := [
  (["ws"], .dir), (["ws", "a.txt"], .file (.text "one")), (["ws", "b.txt"], .file (.text "two")),
  (["ws", "c.txt"], .file (.text "aaa"))]

/-- A file is read and another one changed from outside. -/
def readAndChange : List Act :=
  [.call [.name "ws"] (.fsRead "a.txt"), .edit (threeFiles.put ["ws", "b.txt"] (.file (.text "new")))]

theorem readThenEdit_not_blind : ∃ w reply, steps (Watched.step sampleHost) (Watched.start threeFiles) readAndChange = some w ∧
    (FileCall.fsEdit "a.txt" "n" "N" false).run sampleHost [.name "ws"] w.session = .ok reply ∧
    w.session.disk.fileAt ["ws", "a.txt"] = some (.text "one") ∧
    reply.session.disk.fileAt ["ws", "a.txt"] = some (.text "oNe") ∧
    w.observed ["ws", "a.txt"] = some (.text "one") := by
  have ended : (steps (Watched.step sampleHost) (Watched.start threeFiles) readAndChange).map Watched.session =
      some ⟨threeFiles.put ["ws", "b.txt"] (.file (.text "new")), [(["ws", "a.txt"], "6f6e65")]⟩ := by decide +kernel
  obtain ⟨w, ran, session⟩ := Option.map_eq_some_iff.mp ended
  have ok : ((FileCall.fsEdit "a.txt" "n" "N" false).run sampleHost [.name "ws"] w.session).toOption.map
      (fun reply => reply.session.disk.fileAt ["ws", "a.txt"]) = some (some (.text "oNe")) := by
    rw [session]
    decide +kernel
  have file : w.session.disk.fileAt ["ws", "a.txt"] = some (.text "one") := by
    rw [session]
    decide
  have careful : Meets (Watched.step sampleHost) (Watched.start threeFiles) (CarefulAct sampleHost)
      (readAndChange ++ [.call [.name "ws"] (.fsEdit "a.txt" "n" "N" false)]) := by
    refine (meets_concat ran).mpr ⟨?_, ?_⟩
    · intro before act after s split _
      have member : act ∈ readAndChange := by
        rw [split]
        simp
      rcases List.mem_cons.mp member with rfl | other
      · trivial
      · rw [List.mem_singleton.mp other]
        trivial
    · intro resolved text resolves there _
      have place : resolveUnderWorkspace w.session.disk [.name "ws"] "a.txt" true = .ok ["ws", "a.txt"] := by
        rw [session]
        decide
      rw [place] at resolves
      cases resolves
      rw [file] at there
      cases there
      decide
  have notBlind := no_blind_overwrite sampleHost_collisionFree threeFiles _ careful readAndChange _ _ [] w rfl ran
  cases run : (FileCall.fsEdit "a.txt" "n" "N" false).run sampleHost [.name "ws"] w.session with
  | error e =>
    rw [run] at ok
    cases ok
  | ok reply =>
    rw [run] at ok
    have changed := Option.some.inj ok
    exact ⟨w, reply, ran, run, file, changed, notBlind.replaced reply run _ _ _ file changed (by decide)⟩

/-- A copy onto a file that was never read, and an edit of a string that occurs twice. -/
theorem blind_calls :
    ¬ NotBlind sampleHost (Watched.start threeFiles) [.name "ws"] (.fsCopy "a.txt" "b.txt") ∧
    ∃ w, steps (Watched.step sampleHost) (Watched.start threeFiles) [.call [.name "ws"] (.fsRead "c.txt")] = some w ∧
      ¬ NotBlind sampleHost w [.name "ws"] (.fsEdit "c.txt" "aa" "b" false) := by
  constructor
  · intro notBlind
    have run : (FileCall.fsCopy "a.txt" "b.txt").run sampleHost [.name "ws"] ⟨threeFiles, []⟩ =
        .ok ⟨.copied "a.txt" "b.txt", [], [["ws", "b.txt"]],
          ⟨threeFiles.put ["ws", "b.txt"] (.file (.text "one")), []⟩⟩ := by decide
    have seen := notBlind.replaced _ run ["ws", "b.txt"] (.text "two") (.text "one") rfl rfl (by decide)
    cases seen
  · have ended : (steps (Watched.step sampleHost) (Watched.start threeFiles) [.call [.name "ws"] (.fsRead "c.txt")]).map
        Watched.session = some ⟨threeFiles, [(["ws", "c.txt"], "616161")]⟩ := by decide +kernel
    obtain ⟨w, ran, session⟩ := Option.map_eq_some_iff.mp ended
    refine ⟨w, ran, ?_⟩
    intro notBlind
    have run : (FileCall.fsEdit "c.txt" "aa" "b" false).run sampleHost [.name "ws"] w.session =
        .ok ⟨.edited "c.txt" 1 2, [], [["ws", "c.txt"]], ⟨threeFiles.put ["ws", "c.txt"] (.file (.text "ba")),
          [(["ws", "c.txt"], "6261"), (["ws", "c.txt"], "616161")]⟩⟩ := by
      rw [session]
      decide +kernel
    obtain ⟨loc, front, back, before, _, only, others⟩ := notBlind.edited _ _ _ rfl _ run
    rw [session] at before others
    have here : loc = ["ws", "c.txt"] := by
      by_contra other
      exact absurd (others ["ws", "c.txt"] (Ne.symm other)) (by decide)
    subst here
    have there : threeFiles.fileAt ["ws", "c.txt"] = some (.text "aaa") := by decide
    have whole := Content.text.inj (Option.some.inj (there.symm.trans before))
    rw [← String.toList_ofList (l := front ++ "aa".toList ++ back),← whole] at only
    have first := (only 0).mp (by decide)
    have second := (only 1).mp (by decide)
    omega

end Zaion.Tools
