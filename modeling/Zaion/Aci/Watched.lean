import Zaion.Aci.Gate
import Zaion.Lib.Steps
import Zaion.Sample

/-! Runs of the gate with edits from outside. A run is watched: for each path text the
content last written there, or else first seen, and the hashes marked so far. -/
namespace Zaion.Aci

open Lib

inductive GateAct (Disk Path : Type) where
  | safeWrite (path : Path) (newContent : String) (language : SyntaxLanguage) (sourceAgent : Option String) (now : String)
  | markToxic (path : Path) (reason now : String)
  /-- Anything another process does to the disk. -/
  | edit (disk : Disk)

structure Watched (Disk : Type) where
  gate : GateState Disk
  /-- The content of the last successful write to a path of the text, else the one first seen. -/
  known : String → Option (List UInt8)
  /-- The hashes returned by `mark_toxic`. -/
  marked : List String

section

variable {Disk Path : Type} (host : Host) (fs : FileSystem Disk Path)
variable (syntaxCheck : String → SyntaxLanguage → SyntaxCheckResult)

/-- The content the gate takes note of when it knows none: that of a file it lets in. -/
def firstSeen (state : GateState Disk) (path : Path) : Option (List UInt8) :=
  match toxicGate host fs state path with
  | .ok _ => if fs.existsAt state.disk path then fs.read state.disk path else none
  | .error _ => none

/-- What is known of the path after a call. -/
def Watched.learned (w : Watched Disk) (path : Path) (newContent : String) : Except AciError Unit → Option (List UInt8)
  | .ok _ => some (Host.utf8 newContent)
  | .error _ => (w.known (fs.toStringLossy path)).or (firstSeen host fs w.gate path)

def Watched.act (w : Watched Disk) : GateAct Disk Path → Watched Disk
  | .safeWrite path newContent language sourceAgent now =>
    let (result, next) := safeWrite host fs syntaxCheck w.gate path newContent language sourceAgent now
    ⟨next, Function.update w.known (fs.toStringLossy path) (w.learned host fs path newContent result), w.marked⟩
  | .markToxic path reason now =>
    match markToxic host fs w.gate path reason now with
    | (.ok hash, next) => ⟨next, w.known, w.marked ++ [hash]⟩
    | (.error _, next) => ⟨next, w.known, w.marked⟩
  | .edit disk => { w with gate := { w.gate with disk := disk } }

def watchedStep (w : Watched Disk) (act : GateAct Disk Path) : Option (Watched Disk) := some (w.act host fs syntaxCheck act)

/-- Two fresh databases, the first one perhaps without its table. -/
def Watched.start (disk : Disk) (toxicReady : Bool) : Watched Disk :=
  ⟨⟨disk, if toxicReady then some [] else none, []⟩, fun _ => none, []⟩

end

section

variable {Disk Path : Type} {host : Host} {fs : FileSystem Disk Path}
variable {syntaxCheck : String → SyntaxLanguage → SyntaxCheckResult}
variable {state next checked : GateState Disk} {path : Path} {newContent now : String} {language : SyntaxLanguage}
variable {sourceAgent : Option String}

/-- The hash a path text is anchored to. -/
def anchorHash (anchors : List RealityAnchor) (text : String) : Option String :=
  (getAnchor anchors text).map RealityAnchor.expectedHash

theorem anchorHash_setAnchor (anchors : List RealityAnchor) (path hash : String) (agent : Option String) (now text : String) :
    anchorHash (setAnchor anchors path hash agent now) text = if text = path then some hash else anchorHash anchors text := by
  have own : RealityAnchor.path ⟨path, hash, now, agent⟩ = path := rfl
  have kept (row : RealityAnchor) : row.path = path → (row.renew hash agent now).path = path := id
  unfold anchorHash getAnchor setAnchor
  by_cases same : text = path
  · subst same
    rw [if_pos rfl,Table.select_upsert_self own kept]
    cases Table.select RealityAnchor.path text anchors <;> rfl
  · rw [if_neg same,Table.select_upsert_other own kept same]

/-- What the second gate leaves: a file that is not there, one found as it was anchored, or
one seen for the first time and anchored now. -/
theorem realityGate_ok (passed : realityGate host fs state path now = .ok checked) :
    (fs.existsAt state.disk path = false ∧ checked = state) ∨
      fs.existsAt state.disk path = true ∧ ∃ bytes, fs.read state.disk path = some bytes ∧
        (anchorHash state.realityAnchors (fs.toStringLossy path) = some (host.sha256Hex bytes) ∧ checked = state ∨
          getAnchor state.realityAnchors (fs.toStringLossy path) = none ∧
            checked = state.anchor (fs.toStringLossy path) (host.sha256Hex bytes) (some "reality-checker") now) := by
  unfold realityGate check hashFile at passed
  by_cases there : fs.existsAt state.disk path = true
  · refine .inr ⟨there, ?_⟩
    rw [if_pos there,if_pos there] at passed
    cases content : fs.read state.disk path with
    | none => simp [content] at passed
    | some bytes =>
      refine ⟨bytes, rfl, ?_⟩
      cases found : getAnchor state.realityAnchors (fs.toStringLossy path) with
      | none =>
        simp only [content,found,Option.map_some,Except.ok.injEq] at passed
        exact .inr ⟨rfl, passed.symm⟩
      | some anchor =>
        by_cases same : anchor.expectedHash = host.sha256Hex bytes
        · simp only [content,found,same,Option.map_some,if_true,Except.ok.injEq] at passed
          exact .inl ⟨by simp [anchorHash,found,same], passed.symm⟩
        · simp [content,found,same] at passed
  · rw [if_neg there] at passed
    exact .inl ⟨by simpa using there, (Except.ok.inj passed).symm⟩

/-- It turns away a file it cannot read, and one that is not as it was anchored. -/
theorem realityGate_error {e : AciError} (failed : realityGate host fs state path now = .error e) :
    (e = .internal ∧ fs.read state.disk path = none) ∨
      ∃ anchor bytes, getAnchor state.realityAnchors (fs.toStringLossy path) = some anchor ∧
        fs.read state.disk path = some bytes ∧ anchor.expectedHash ≠ host.sha256Hex bytes ∧
          e = .realityDiverged (fs.toStringLossy path) anchor.expectedHash (host.sha256Hex bytes) := by
  unfold realityGate check hashFile at failed
  by_cases there : fs.existsAt state.disk path = true
  · rw [if_pos there,if_pos there] at failed
    cases content : fs.read state.disk path with
    | none =>
      simp only [content,Option.map_none,Except.error.injEq] at failed
      exact .inl ⟨failed.symm, rfl⟩
    | some bytes =>
      cases found : getAnchor state.realityAnchors (fs.toStringLossy path) with
      | none => simp [content,found] at failed
      | some anchor =>
        by_cases same : anchor.expectedHash = host.sha256Hex bytes
        · simp [content,found,same] at failed
        · simp only [content,found,same,Option.map_some,if_false,Except.error.injEq] at failed
          exact .inr ⟨anchor, bytes, rfl, rfl, same, failed.symm⟩
  · rw [if_neg there] at failed
    cases failed

/-- The ways a call ends: turned away by one of the gates, failing on the disk, or done. -/
theorem safeWrite_cases {result : Except AciError Unit}
    (called : safeWrite host fs syntaxCheck state path newContent language sourceAgent now = (result, next)) :
    (∃ e, toxicGate host fs state path = .error e ∧ result = .error e ∧ next = state) ∨
      toxicGate host fs state path = .ok () ∧
        ((∃ e, realityGate host fs state path now = .error e ∧ result = .error e ∧ next = state) ∨
          ∃ checked, realityGate host fs state path now = .ok checked ∧
            ((∃ e, syntaxGate syntaxCheck newContent language = .error e ∧ result = .error e ∧ next = checked) ∨
              (∃ disk e, e.ofGate = false ∧ result = .error e ∧ next = { checked with disk := disk }) ∨
                ∃ disk hash, atomicWrite fs checked.disk path (Host.utf8 newContent) = (disk, true) ∧
                  hashFile host fs disk path = some hash ∧ result = .ok () ∧
                    next = { checked with disk := disk }.anchor (fs.toStringLossy path) hash sourceAgent now)) := by
  unfold safeWrite at called
  cases first : toxicGate host fs state path with
  | error e =>
    rw [first] at called
    cases called
    exact .inl ⟨e, rfl, rfl, rfl⟩
  | ok _ =>
    refine .inr ⟨rfl, ?_⟩
    rw [first] at called
    cases second : realityGate host fs state path now with
    | error e =>
      simp only [second] at called
      cases called
      exact .inl ⟨e, rfl, rfl, rfl⟩
    | ok checked =>
      refine .inr ⟨checked, rfl, ?_⟩
      simp only [second] at called
      cases third : syntaxGate syntaxCheck newContent language with
      | error e =>
        simp only [third] at called
        cases called
        exact .inl ⟨e, rfl, rfl, rfl⟩
      | ok _ =>
        refine .inr ?_
        simp only [third] at called
        rcases done : atomicWrite fs checked.disk path (Host.utf8 newContent) with ⟨disk, _ | _⟩
        · simp only [done] at called
          cases called
          exact .inl ⟨disk, .io, rfl, rfl, rfl⟩
        · simp only [done] at called
          cases read : hashFile host fs disk path with
          | none =>
            simp only [read] at called
            cases called
            exact .inl ⟨disk, .internal, rfl, rfl, rfl⟩
          | some hash =>
            simp only [read] at called
            cases called
            exact .inr ⟨disk, hash, rfl, read, rfl, rfl⟩

/-- The anchors are the hashes of what is known, and what was marked is in the registry. -/
structure Watched.Agrees (host : Host) (w : Watched Disk) : Prop where
  anchors : ∀ text, anchorHash w.gate.realityAnchors text = (w.known text).map host.sha256Hex
  marks : ∀ hash ∈ w.marked, ∃ rows, w.gate.toxicHashes = some rows ∧ hash ∈ rows.map ToxicRow.hash

theorem Watched.start_agrees (disk : Disk) (toxicReady : Bool) : (Watched.start disk toxicReady).Agrees host where
  anchors := fun _ => rfl
  marks := fun _ member => nomatch member

/-- Past the second gate the anchors are the hashes of what is known, or now seen. -/
theorem anchors_checked {known : String → Option (List UInt8)} (toxic : toxicGate host fs state path = .ok ())
    (passed : realityGate host fs state path now = .ok checked)
    (agree : ∀ text, anchorHash state.realityAnchors text = (known text).map host.sha256Hex) (text : String) :
    anchorHash checked.realityAnchors text =
      (if text = fs.toStringLossy path then (known text).or (firstSeen host fs state path) else known text).map
        host.sha256Hex := by
  rcases realityGate_ok passed with ⟨missing, rfl⟩ | ⟨there, bytes, content, ⟨same, rfl⟩ | ⟨unknown, rfl⟩⟩
  · have seen : firstSeen host fs checked path = none := by simp [firstSeen,toxic,missing]
    rw [seen,Option.or_none,ite_self]
    exact agree text
  · by_cases here : text = fs.toStringLossy path
    · subst here
      rw [if_pos rfl,agree]
      rw [agree] at same
      obtain ⟨old, found, _⟩ := Option.map_eq_some_iff.mp same
      rw [found,Option.some_or]
    · rw [if_neg here]
      exact agree text
  · have seen : firstSeen host fs state path = some bytes := by simp [firstSeen,toxic,there,content]
    rw [GateState.anchor,anchorHash_setAnchor]
    by_cases here : text = fs.toStringLossy path
    · subst here
      have none_ : known (fs.toStringLossy path) = none := by
        have nothing := agree (fs.toStringLossy path)
        rw [anchorHash,unknown] at nothing
        exact Option.map_eq_none_iff.mp nothing.symm
      rw [if_pos rfl,if_pos rfl,none_,Option.none_or,seen]
      rfl
    · rw [if_neg here,if_neg here]
      exact agree text

theorem atomicWrite_read {disk disk' : Disk} {content bytes : List UInt8} (moves : fs.Moves)
    (done : atomicWrite fs disk path content = (disk', true)) (found : fs.read disk' path = some bytes) : bytes = content := by
  unfold atomicWrite at done
  simp only at done
  split at done
  · split at done
    · rename_i wrote
      exact moves _ _ _ _ _ _ (Prod.ext rfl wrote) done bytes found
    · cases done
  · cases done

/-- A call that went through anchored its own content. -/
theorem hash_written {disk disk' : Disk} {content : List UInt8} {hash : String} (moves : fs.Moves)
    (done : atomicWrite fs disk path content = (disk', true)) (anchored : hashFile host fs disk' path = some hash) :
    hash = host.sha256Hex content := by
  obtain ⟨bytes, found, rfl⟩ := Option.map_eq_some_iff.mp anchored
  rw [atomicWrite_read moves done found]

theorem toxicHashes_checked (passed : realityGate host fs state path now = .ok checked) :
    checked.toxicHashes = state.toxicHashes := by
  rcases realityGate_ok passed with ⟨_, rfl⟩ | ⟨_, _, _, ⟨_, rfl⟩ | ⟨_, rfl⟩⟩ <;> rfl

theorem disk_checked (passed : realityGate host fs state path now = .ok checked) : checked.disk = state.disk := by
  rcases realityGate_ok passed with ⟨_, rfl⟩ | ⟨_, _, _, ⟨_, rfl⟩ | ⟨_, rfl⟩⟩ <;> rfl

/-- A call leaves the registry alone. -/
theorem toxicHashes_safeWrite {result : Except AciError Unit}
    (called : safeWrite host fs syntaxCheck state path newContent language sourceAgent now = (result, next)) :
    next.toxicHashes = state.toxicHashes := by
  rcases safeWrite_cases called with ⟨_, _, _, rfl⟩ | ⟨_, ⟨_, _, _, rfl⟩ | ⟨checked, passed, later⟩⟩
  · rfl
  · rfl
  · rw [← toxicHashes_checked passed]
    rcases later with ⟨_, _, _, rfl⟩ | ⟨_, _, _, _, rfl⟩ | ⟨_, _, _, _, _, rfl⟩ <;> rfl

variable {w : Watched Disk}

theorem act_safeWrite {result : Except AciError Unit}
    (called : safeWrite host fs syntaxCheck w.gate path newContent language sourceAgent now = (result, next)) :
    w.act host fs syntaxCheck (.safeWrite path newContent language sourceAgent now) =
      ⟨next, Function.update w.known (fs.toStringLossy path) (w.learned host fs path newContent result), w.marked⟩ := by
  simp only [Watched.act,called]

theorem Watched.Agrees.safeWrite (agrees : w.Agrees host) (moves : fs.Moves) :
    (w.act host fs syntaxCheck (.safeWrite path newContent language sourceAgent now)).Agrees host := by
  rcases called : Aci.safeWrite host fs syntaxCheck w.gate path newContent language sourceAgent now with ⟨result, next⟩
  rw [act_safeWrite called]
  refine ⟨?_, fun hash member => toxicHashes_safeWrite called ▸ agrees.marks hash member⟩
  intro text
  dsimp only
  by_cases here : text = fs.toStringLossy path
  · subst here
    rw [Function.update_self]
    rcases safeWrite_cases called with ⟨e, toxic, rfl, rfl⟩ | ⟨toxic, ⟨e, failed, rfl, rfl⟩ | ⟨checked, passed, later⟩⟩
    · have nothing : firstSeen host fs w.gate path = none := by simp [firstSeen,toxic]
      rw [Watched.learned,nothing,Option.or_none]
      exact agrees.anchors _
    · rw [Watched.learned]
      rcases realityGate_error failed with ⟨_, unreadable⟩ | ⟨anchor, _, found, _⟩
      · have nothing : firstSeen host fs w.gate path = none := by simp [firstSeen,toxic,unreadable]
        rw [nothing,Option.or_none]
        exact agrees.anchors _
      · have known := agrees.anchors (fs.toStringLossy path)
        rw [anchorHash,found] at known
        obtain ⟨bytes, old, _⟩ := Option.map_eq_some_iff.mp known.symm
        rw [agrees.anchors,old,Option.some_or]
    · have seen := anchors_checked toxic passed agrees.anchors (fs.toStringLossy path)
      rw [if_pos rfl] at seen
      rcases later with ⟨e, _, rfl, rfl⟩ | ⟨_, _, _, rfl, rfl⟩ | ⟨disk, hash, done, anchored, rfl, rfl⟩
      · exact seen
      · exact seen
      · rw [GateState.anchor,anchorHash_setAnchor,if_pos rfl,hash_written moves done anchored]
        rfl
  · rw [Function.update_of_ne here]
    rcases safeWrite_cases called with ⟨_, _, _, rfl⟩ | ⟨toxic, ⟨_, _, _, rfl⟩ | ⟨checked, passed, later⟩⟩
    · exact agrees.anchors text
    · exact agrees.anchors text
    · have same := anchors_checked toxic passed agrees.anchors text
      rw [if_neg here] at same
      rcases later with ⟨_, _, _, rfl⟩ | ⟨_, _, _, _, rfl⟩ | ⟨_, _, _, _, _, rfl⟩
      · exact same
      · exact same
      · rw [GateState.anchor,anchorHash_setAnchor,if_neg here]
        exact same

theorem Watched.Agrees.markToxic {reason : String} (agrees : w.Agrees host) :
    (w.act host fs syntaxCheck (.markToxic path reason now)).Agrees host := by
  simp only [Watched.act,Aci.markToxic]
  cases hashFile host fs w.gate.disk path with
  | none => exact agrees
  | some hash =>
    cases registry : w.gate.toxicHashes with
    | none => exact ⟨agrees.anchors, agrees.marks⟩
    | some rows =>
      refine ⟨agrees.anchors, ?_⟩
      intro marked member
      refine ⟨_, rfl, (Table.mem_keys_upsert ?_).mpr ?_⟩
      · exact fun _ own => own
      rcases List.mem_append.mp member with old | new
      · obtain ⟨rows', same, inside⟩ := agrees.marks marked old
        rw [registry] at same
        exact .inr (Option.some.inj same ▸ inside)
      · exact .inl (List.mem_singleton.mp new)

/-- One action. -/
theorem Watched.Agrees.act (agrees : w.Agrees host) (moves : fs.Moves) (act : GateAct Disk Path) :
    (w.act host fs syntaxCheck act).Agrees host := by
  cases act with
  | safeWrite path newContent language sourceAgent now => exact agrees.safeWrite moves
  | markToxic path reason now => exact agrees.markToxic
  | edit disk => exact ⟨agrees.anchors, agrees.marks⟩

/-- A whole run. -/
theorem Watched.Agrees.run {w' : Watched Disk} {acts : List (GateAct Disk Path)} (agrees : w.Agrees host) (moves : fs.Moves)
    (run : steps (watchedStep host fs syntaxCheck) w acts = some w') : w'.Agrees host := by
  refine steps_invariant run agrees ?_
  intro s act s' here taken
  obtain rfl := Option.some.inj taken
  exact here.act moves act

theorem toxicGate_error {e : AciError} (failed : toxicGate host fs state path = .error e) (p expected actual : String) :
    e ≠ .realityDiverged p expected actual := by
  unfold toxicGate at failed
  split at failed
  · split at failed
    · split at failed
      · cases failed
        exact nofun
      · cases failed
    · cases failed
      exact nofun
  · cases failed

theorem syntaxGate_error {e : AciError} (failed : syntaxGate syntaxCheck newContent language = .error e)
    (p expected actual : String) : e ≠ .realityDiverged p expected actual := by
  unfold syntaxGate SyntaxCheckResult.toAciError at failed
  simp only at failed
  split at failed
  · cases failed
  · cases result : syntaxCheck newContent language with
    | valid => simp [result] at failed
    | skipped _ => simp [result] at failed
    | invalid errors =>
      simp only [result,Except.error.injEq] at failed
      subst failed
      exact nofun

/-- A file that holds what is known of its path is not turned away as changed. -/
theorem not_diverged (agrees : w.Agrees host) {bytes : List UInt8} (known : w.known (fs.toStringLossy path) = some bytes)
    (untouched : fs.read w.gate.disk path = some bytes) (p expected actual : String) :
    (safeWrite host fs syntaxCheck w.gate path newContent language sourceAgent now).1 ≠
      .error (.realityDiverged p expected actual) := by
  rcases called : safeWrite host fs syntaxCheck w.gate path newContent language sourceAgent now with ⟨result, next⟩
  rcases safeWrite_cases called with ⟨e, toxic, rfl, _⟩ | ⟨_, ⟨e, failed, rfl, _⟩ | ⟨checked, passed, later⟩⟩
  · exact fun same => toxicGate_error toxic p expected actual (Except.error.inj same)
  · rcases realityGate_error failed with ⟨_, unreadable⟩ | ⟨anchor, bytes', found, content, other, _⟩
    · rw [untouched] at unreadable
      cases unreadable
    · have same := agrees.anchors (fs.toStringLossy path)
      rw [anchorHash,found,known] at same
      rw [untouched] at content
      obtain rfl := Option.some.inj content
      exact absurd (Option.some.inj same) other
  · rcases later with ⟨e, wrong, rfl, _⟩ | ⟨_, e, disk, rfl, _⟩ | ⟨_, _, _, _, rfl, _⟩
    · exact fun same => syntaxGate_error wrong p expected actual (Except.error.inj same)
    · intro same
      rw [Except.error.inj same] at disk
      cases disk
    · exact nofun

/-- Not a write to a path of this text. -/
def GateAct.Spares (fs : FileSystem Disk Path) (text : String) : GateAct Disk Path → Prop
  | .safeWrite path .. => fs.toStringLossy path ≠ text
  | _ => True

theorem known_act {act : GateAct Disk Path} {text : String} (spares : act.Spares fs text) :
    (w.act host fs syntaxCheck act).known text = w.known text := by
  cases act with
  | safeWrite path newContent language sourceAgent now => exact Function.update_of_ne (Ne.symm spares) _ _
  | markToxic path reason now =>
    simp only [Watched.act]
    split <;> rfl
  | edit disk => rfl

theorem known_run {w' : Watched Disk} {text : String} {acts : List (GateAct Disk Path)}
    (spares : ∀ act ∈ acts, act.Spares fs text) (run : steps (watchedStep host fs syntaxCheck) w acts = some w') :
    w'.known text = w.known text := by
  induction acts generalizing w with
  | nil => rw [Option.some.inj run]
  | cons act rest ih =>
    exact (ih (fun later member => spares later (List.mem_cons_of_mem _ member)) run).trans
      (known_act (spares act List.mem_cons_self))

end

section

variable {Disk Path : Type} (host : Host) (fs : FileSystem Disk Path)
variable (syntaxCheck : String → SyntaxLanguage → SyntaxCheckResult)

/-- What a write at some point of a run does. -/
structure Kept (w : Watched Disk) (path : Path) (newContent : String) (language : SyntaxLanguage) (sourceAgent : Option String)
    (now : String) (result : Except AciError Unit) (next : GateState Disk) : Prop where
  /-- It replaces no file whose content was marked. -/
  clean : result = .ok () → fs.existsAt w.gate.disk path = true → ∀ bytes, fs.read w.gate.disk path = some bytes →
    host.sha256Hex bytes ∉ w.marked
  /-- It replaces an anchored file only with the content last written there, or first seen. -/
  unchanged : result = .ok () → fs.existsAt w.gate.disk path = true →
    (getAnchor w.gate.realityAnchors (fs.toStringLossy path)).isSome = true →
      ∃ bytes, fs.read w.gate.disk path = some bytes ∧ w.known (fs.toStringLossy path) = some bytes
  /-- Turned away by a gate it changes no file and no anchor there is. -/
  refused : ∀ e, result = .error e → e.ofGate = true → next.disk = w.gate.disk ∧
    ∀ text anchor, getAnchor w.gate.realityAnchors text = some anchor → getAnchor next.realityAnchors text = some anchor
  /-- Done it anchors what it wrote .. -/
  anchored : result = .ok () →
    anchorHash next.realityAnchors (fs.toStringLossy path) = some (host.sha256Hex (Host.utf8 newContent))
  /-- .. and the next write finds no change where there is none. -/
  undisturbed : result = .ok () → ∀ later w', (∀ act ∈ later, GateAct.Spares fs (fs.toStringLossy path) act) →
    steps (watchedStep host fs syntaxCheck) (w.act host fs syntaxCheck (.safeWrite path newContent language sourceAgent now))
      later = some w' → fs.read w'.gate.disk path = some (Host.utf8 newContent) →
        ∀ content' language' agent' now' p expected actual,
          (safeWrite host fs syntaxCheck w'.gate path content' language' agent' now').1 ≠
            .error (.realityDiverged p expected actual)

end

section

variable {Disk Path : Type} {host : Host} {fs : FileSystem Disk Path}
variable {syntaxCheck : String → SyntaxLanguage → SyntaxCheckResult} {state checked : GateState Disk} {path : Path}
variable {w : Watched Disk} {now : String}

theorem toxicGate_ok (passed : toxicGate host fs state path = .ok ()) (there : fs.existsAt state.disk path = true)
    {bytes : List UInt8} (content : fs.read state.disk path = some bytes) :
    ∃ rows, state.toxicHashes = some rows ∧ host.sha256Hex bytes ∉ rows.map ToxicRow.hash := by
  unfold toxicGate hashFile at passed
  rw [if_pos there,content,Option.map_some] at passed
  cases registry : state.toxicHashes with
  | none => simp [registry] at passed
  | some rows =>
    refine ⟨rows, rfl, ?_⟩
    intro member
    simp only [registry] at passed
    rw [if_pos member] at passed
    cases passed

/-- The check adds an anchor, it changes none. -/
theorem getAnchor_checked (passed : realityGate host fs state path now = .ok checked) {text : String} {anchor : RealityAnchor}
    (found : getAnchor state.realityAnchors text = some anchor) : getAnchor checked.realityAnchors text = some anchor := by
  rcases realityGate_ok passed with ⟨_, rfl⟩ | ⟨_, bytes, _, ⟨_, rfl⟩ | ⟨unknown, rfl⟩⟩
  · exact found
  · exact found
  · have other : text ≠ fs.toStringLossy path := by
      rintro rfl
      rw [unknown] at found
      cases found
    have own : RealityAnchor.path ⟨fs.toStringLossy path, host.sha256Hex bytes, now, some "reality-checker"⟩ =
      fs.toStringLossy path := rfl
    refine (Table.select_upsert_other own ?_ other).trans found
    exact fun _ same => same

/-- In every run, whatever is edited from outside in between, a write keeps to all of this. -/
theorem gate_kept (collisionFree : host.CollisionFree) (moves : fs.Moves) (disk : Disk) (toxicReady : Bool)
    (acts : List (GateAct Disk Path)) (run : steps (watchedStep host fs syntaxCheck) (.start disk toxicReady) acts = some w)
    (path : Path) (newContent : String) (language : SyntaxLanguage) (sourceAgent : Option String) (now : String) :
    Kept host fs syntaxCheck w path newContent language sourceAgent now
      (safeWrite host fs syntaxCheck w.gate path newContent language sourceAgent now).1
      (safeWrite host fs syntaxCheck w.gate path newContent language sourceAgent now).2 := by
  have agrees := (Watched.start_agrees disk toxicReady).run moves run
  rcases called : safeWrite host fs syntaxCheck w.gate path newContent language sourceAgent now with ⟨result, next⟩
  have ways := safeWrite_cases called
  -- A call that goes through has passed the two gates and written.
  have through (done : result = .ok ()) : toxicGate host fs w.gate path = .ok () ∧ ∃ checked disk hash,
      realityGate host fs w.gate path now = .ok checked ∧
        atomicWrite fs checked.disk path (Host.utf8 newContent) = (disk, true) ∧ hashFile host fs disk path = some hash ∧
          next = { checked with disk := disk }.anchor (fs.toStringLossy path) hash sourceAgent now := by
    subst done
    rcases ways with ⟨_, _, same, _⟩ | ⟨toxic, ⟨_, _, same, _⟩ | ⟨checked, passed, later⟩⟩
    · cases same
    · cases same
    · rcases later with ⟨_, _, same, _⟩ | ⟨_, _, _, same, _⟩ | ⟨disk, hash, wrote, anchored, _, last⟩
      · cases same
      · cases same
      · exact ⟨toxic, checked, disk, hash, passed, wrote, anchored, last⟩
  refine ⟨?_, ?_, ?_, ?_, ?_⟩
  · intro done there bytes content member
    obtain ⟨rows, registry, absent⟩ := toxicGate_ok (through done).1 there content
    obtain ⟨rows', registry', present⟩ := agrees.marks _ member
    rw [registry] at registry'
    exact absent (Option.some.inj registry' ▸ present)
  · intro done there anchored
    obtain ⟨_, checked, _, _, passed, _⟩ := through done
    rcases realityGate_ok passed with ⟨missing, _⟩ | ⟨_, bytes, content, ⟨same, _⟩ | ⟨unknown, _⟩⟩
    · rw [there] at missing
      cases missing
    · refine ⟨bytes, content, ?_⟩
      rw [agrees.anchors] at same
      obtain ⟨old, known, hash⟩ := Option.map_eq_some_iff.mp same
      rw [known,collisionFree hash]
    · rw [unknown] at anchored
      cases anchored
  · intro e failed gate
    subst failed
    rcases ways with ⟨_, _, _, rfl⟩ | ⟨_, ⟨_, _, _, rfl⟩ | ⟨checked, passed, later⟩⟩
    · exact ⟨rfl, fun _ _ found => found⟩
    · exact ⟨rfl, fun _ _ found => found⟩
    · rcases later with ⟨_, _, _, rfl⟩ | ⟨_, _, other, same, _⟩ | ⟨_, _, _, _, same, _⟩
      · exact ⟨disk_checked passed, fun _ _ found => getAnchor_checked passed found⟩
      · rw [Except.error.inj same,other] at gate
        cases gate
      · cases same
  · intro done
    obtain ⟨_, checked, disk, hash, _, wrote, anchored, rfl⟩ := through done
    rw [GateState.anchor,anchorHash_setAnchor,if_pos rfl,hash_written moves wrote anchored]
  · intro done later w' spares continued untouched content' language' agent' now' p expected actual
    subst done
    refine not_diverged ((agrees.safeWrite moves).run moves continued) ?_ untouched p expected actual
    rw [known_run spares continued,act_safeWrite called]
    exact Function.update_self ..

end

/-- The files of one directory. -/
def plainFiles : FileSystem (List (String × List UInt8)) String where
  existsAt := fun disk path => (disk.lookup path).isSome
  read := fun disk path => disk.lookup path
  createDirAll := fun disk _ => (disk, true)
  write := fun disk path content => ((path, content) :: disk.filter (fun file => file.1 ≠ path), true)
  rename := fun disk source target =>
    match disk.lookup source with
    | none => (disk, false)
    | some content => ((target, content) :: disk.filter (fun file => file.1 ≠ source ∧ file.1 ≠ target), true)
  parent := fun _ => some ""
  withExtension := fun path extension => String.ofList (path.toList.takeWhile (fun c => c ≠ '.')) ++ "." ++ extension
  toStr := some
  toStringLossy := id

theorem plainFiles_moves : plainFiles.Moves := by
  intro disk tmp path content written moved wrote renamed bytes found
  obtain ⟨rfl, _⟩ := Prod.mk.inj wrote
  simp only [plainFiles,List.lookup_cons_self] at renamed
  obtain ⟨rfl, _⟩ := Prod.mk.inj renamed
  simp only [plainFiles,List.lookup_cons_self] at found
  exact (Option.some.inj found).symm

/-- `SyntaxGate::check` of a language it does not know. -/
def skips : String → SyntaxLanguage → SyntaxCheckResult := fun _ _ => .skipped "unknown language — syntax check skipped"

/-- A first write. -/
def writtenOnce : Watched (List (String × List UInt8)) :=
  (Watched.start [] true).act sampleHost plainFiles skips (.safeWrite "a.txt" "one" .unknown none "t0")

/-- The file is found as it was left, and written again. -/
theorem rewrite_kept : (safeWrite sampleHost plainFiles skips writtenOnce.gate "a.txt" "two" .unknown none "t1").1 = .ok () ∧
    Kept sampleHost plainFiles skips writtenOnce "a.txt" "two" .unknown none "t1"
      (safeWrite sampleHost plainFiles skips writtenOnce.gate "a.txt" "two" .unknown none "t1").1
      (safeWrite sampleHost plainFiles skips writtenOnce.gate "a.txt" "two" .unknown none "t1").2 := by
  have free : sampleHost.CollisionFree := hexEncode_injective
  refine ⟨by decide +kernel, ?_⟩
  exact gate_kept free plainFiles_moves [] true [.safeWrite "a.txt" "one" .unknown none "t0"] rfl
    "a.txt" "two" .unknown none "t1"

/-- A file comes from outside and is marked. -/
def markedRun : List (GateAct (List (String × List UInt8)) String) := [
  .edit [("plugin.js", Host.utf8 "while(true)")],
  .markToxic "plugin.js" "infinite_loop" "t0"]

/-- Its content is then written to another file. -/
theorem marked_written : ∃ w, steps (watchedStep sampleHost plainFiles skips) (.start [] true) markedRun = some w ∧
    sampleHost.sha256Hex (Host.utf8 "while(true)") ∈ w.marked ∧
      (safeWrite sampleHost plainFiles skips w.gate "copy.js" "while(true)" .unknown none "t1").1 = .ok () ∧
        plainFiles.read (safeWrite sampleHost plainFiles skips w.gate "copy.js" "while(true)" .unknown none "t1").2.disk
          "copy.js" = some (Host.utf8 "while(true)") := by
  refine ⟨_, rfl, ?_, ?_, ?_⟩
  · decide +kernel
  · decide
  · decide +kernel

end Zaion.Aci
