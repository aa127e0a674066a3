import Mathlib.Data.List.Perm.Basic
import Zaion.Batch.Runner

/-! What a resumed batch keeps: the invariant that ties the checkpoint to the output file while
a run is idle, working or writing, each step that keeps it, and every sequence of runs. -/
namespace Zaion.Batch

open Zaion.Lib

section

variable (prompts : List String)

/-- The line is the trajectory of a success of its prompt. -/
def Content (l : Nat × Trajectory) : Prop := l.2.prompt = promptAt prompts l.1 ∧ l.2.success = true

def linesOf (lines : List (Nat × Trajectory)) : List Line := lines.map (fun l => .trajectory l.1 l.2)

/-- The output and the lines to come have one for each of the prompts, and no other. -/
def Lines (output : Option (List Line)) (extra : List (Nat × Trajectory)) (among : Nat → Prop) : Prop :=
  ∃ lines, output = some (linesOf lines) ∧ ((lines ++ extra).map Prod.fst).Nodup ∧
    (∀ i, i ∈ (lines ++ extra).map Prod.fst ↔ among i) ∧ ∀ l ∈ lines ++ extra, Content prompts l

def Covered (checkpoint : Option BatchCheckpoint) : Prop :=
  ∀ i, i < prompts.length → i ∈ completedOf checkpoint ∨ i ∈ failedOf checkpoint

structure Idle (s : State) : Prop where
  succeeded : ∀ i ∈ s.succeeded, i ∈ completedOf s.checkpoint
  lines : completedOf s.checkpoint ≠ [] → Lines prompts s.output [] (· ∈ completedOf s.checkpoint)
  finished : ∀ ts, s.result = some (.ok ts) →
    Lines prompts s.output [] (· ∈ completedOf s.checkpoint) ∧ Covered prompts s.checkpoint

/-- The prompts of the run that did not fail so far. -/
def Working.jobs (w : Working) : List Nat := w.queue ++ w.inflight ++ w.channel.map Prod.fst ++ w.kept.map Prod.fst

/-- `base` is what was completed when the run began. -/
structure Busy (s : State) (w : Working) (base : List Nat) : Prop where
  completed : ∀ i, i ∈ completedOf s.checkpoint ↔ i ∈ base ∨ i ∈ w.kept.map Prod.fst
  jobs : w.jobs.Nodup
  fresh : ∀ i ∈ w.jobs, i < prompts.length ∧ i ∉ base
  cover : ∀ i, i < prompts.length → i ∈ base ∨ i ∈ w.jobs ∨ i ∈ failedOf s.checkpoint
  content : ∀ l ∈ w.kept, Content prompts l
  channel : ∀ i t, (i, .ok t) ∈ w.channel → t.prompt = promptAt prompts i
  succeeded : ∀ i ∈ s.succeeded, i ∈ base ∨ i ∈ w.kept.map Prod.fst ∨ ∃ t, (i, .ok t) ∈ w.channel ∧ t.success = true
  lines : base ≠ [] → Lines prompts s.output [] (· ∈ base)
  resume : w.resume = (!base.isEmpty && s.output.isSome)

structure Closing (s : State) (w : Writing) : Prop where
  lines : Lines prompts s.output w.remaining (· ∈ completedOf s.checkpoint)
  cover : Covered prompts s.checkpoint
  succeeded : ∀ i ∈ s.succeeded, i ∈ completedOf s.checkpoint

structure Inv (s : State) : Prop where
  normal : NormalFile s.checkpoint
  range : ∀ i, i ∈ completedOf s.checkpoint ∨ i ∈ failedOf s.checkpoint → i < prompts.length
  run : match s.run with
    | .idle => Idle prompts s
    | .working w => ∃ base, Busy prompts s w base
    | .writing w => Closing prompts s w

end

section

variable {prompts : List String} {s s' : State} {w : Working} {base : List Nat} {i : Nat} {a : Act}
  {output : Option (List Line)} {extra : List (Nat × Trajectory)} {among among' : Nat → Prop}

theorem Lines.congr (lines : Lines prompts output extra among) (same : ∀ i, among i ↔ among' i) :
    Lines prompts output extra among' := by
  obtain ⟨here, shape, nodup, all, content⟩ := lines
  exact ⟨here, shape, nodup, fun i => (all i).trans (same i), content⟩

theorem Inv.complete (inv : Inv prompts s) (idle : s.run = .idle) {ts : List Trajectory} (ended : s.result = some (.ok ts)) :
    Complete prompts s := by
  have run := inv.run
  rw [idle] at run
  obtain ⟨⟨lines, shape, nodup, all, content⟩, cover⟩ := run.finished ts ended
  rw [List.append_nil] at nodup all content
  have normal : (completedOf s.checkpoint).Nodup ∧ (failedOf s.checkpoint).Nodup := by
    cases file : s.checkpoint with
    | none => exact ⟨List.nodup_nil, List.nodup_nil⟩
    | some cp => exact (inv.normal cp file).nodup
  refine ⟨⟨lines, shape, (List.perm_ext_iff_of_nodup nodup normal.1).mpr all, content⟩, normal, ?_, ?_⟩
  · intro i failed
    cases file : s.checkpoint with
    | none => exact List.not_mem_nil
    | some cp =>
      rw [file] at failed
      exact (inv.normal cp file).disjoint failed
  · exact fun i => ⟨inv.range i, cover i⟩

/-- A run stopped before a success leaves the files as they were, up to failed prompts. -/
theorem Busy.settle (busy : Busy prompts s w base) (settled : (Run.working w).settled) :
    (∀ i ∈ s.succeeded, i ∈ completedOf s.checkpoint) ∧
    (completedOf s.checkpoint ≠ [] → Lines prompts s.output [] (· ∈ completedOf s.checkpoint)) := by
  obtain ⟨none_, failing⟩ := settled
  have same (i : Nat) : i ∈ completedOf s.checkpoint ↔ i ∈ base := by
    rw [busy.completed,none_]
    simp
  constructor
  · intro i success
    rcases busy.succeeded i success with old | kept | ⟨t, sent, success⟩
    · exact (same i).mpr old
    · rw [none_] at kept
      cases kept
    · rw [failing i t sent] at success
      cases success
  · intro some_
    refine (busy.lines ?_).congr (fun i => (same i).symm)
    rintro rfl
    exact some_ (List.eq_nil_iff_forall_not_mem.mpr fun i inside => absurd ((same i).mp inside) List.not_mem_nil)

theorem Inv.begin {numWorkers : Nat} {now : String} {ok : Bool} (inv : Inv prompts s)
    (taken : step prompts s (.begin numWorkers now ok) = some s') : Inv prompts s' := by
  rw [step] at taken
  split at taken
  · rename_i idle
    obtain ⟨cp, load, completed, failed⟩ := @loadCheckpoint_normal _ ok now inv.normal
    rw [load] at taken
    cases taken
    have run := inv.run
    rw [idle] at run
    refine ⟨inv.normal, inv.range, completedOf s.checkpoint, ?_⟩
    have jobs : (pending prompts cp.completed ++ [] ++ ([] : List (Nat × Except String Trajectory)).map Prod.fst ++
        ([] : List (Nat × Trajectory)).map Prod.fst) = pending prompts (completedOf s.checkpoint) := by
      simp [completed]
    have known (i : Nat) : i ∈ pending prompts (completedOf s.checkpoint) ↔
        i < prompts.length ∧ i ∉ completedOf s.checkpoint := by
      simp [pending]
    refine ⟨by simp, ?_, ?_, ?_, nofun, nofun, fun i success => .inl (run.succeeded i success), run.lines, by simp [completed]⟩
    · rw [Working.jobs,jobs]
      exact List.nodup_range.filter _
    · intro i job
      rw [Working.jobs,jobs] at job
      exact (known i).mp job
    · intro i inside
      rw [Working.jobs,jobs]
      by_cases old : i ∈ completedOf s.checkpoint
      · exact .inl old
      · exact .inr (.inl ((known i).mpr ⟨inside, old⟩))
  · cases taken

/-- The same prompts in another order of the stages. -/
theorem Busy.move {w' : Working} {succeeded : List Nat} (busy : Busy prompts s w base) (jobs : w'.jobs.Perm w.jobs)
    (kept : w'.kept = w.kept) (resume : w'.resume = w.resume)
    (channel : ∀ i t, (i, .ok t) ∈ w'.channel → t.prompt = promptAt prompts i)
    (known : ∀ i ∈ succeeded, i ∈ base ∨ i ∈ w'.kept.map Prod.fst ∨ ∃ t, (i, .ok t) ∈ w'.channel ∧ t.success = true) :
    Busy prompts { s with run := .working w', succeeded := succeeded } w' base := by
  refine ⟨?_, jobs.nodup_iff.mpr busy.jobs, fun i job => busy.fresh i (jobs.mem_iff.mp job), ?_, ?_, channel, known, busy.lines,
    resume.trans busy.resume⟩
  · rw [kept]
    exact busy.completed
  · intro i inside
    rw [jobs.mem_iff]
    exact busy.cover i inside
  · rw [kept]
    exact busy.content

theorem Inv.pop (inv : Inv prompts s) (taken : step prompts s .pop = some s') : Inv prompts s' := by
  rw [step] at taken
  split at taken
  · rename_i w working
    have run := inv.run
    rw [working] at run
    obtain ⟨base, busy⟩ := run
    split at taken
    · rename_i i rest queue
      split at taken <;> cases taken
      refine ⟨inv.normal, inv.range, base, busy.move ?_ rfl rfl busy.channel busy.succeeded⟩
      have moved := @List.perm_middle _ i (rest ++ w.inflight) (w.channel.map Prod.fst ++ w.kept.map Prod.fst)
      simpa [Working.jobs,queue] using moved
    · cases taken
  · cases taken

theorem Inv.finish {outcome : Except String BatchExecutionResult} (inv : Inv prompts s)
    (taken : step prompts s (.finish i outcome) = some s') : Inv prompts s' := by
  rw [step] at taken
  split at taken
  · rename_i w working
    have run := inv.run
    rw [working] at run
    obtain ⟨base, busy⟩ := run
    split at taken <;> cases taken
    rename_i running
    refine ⟨inv.normal, inv.range, base, busy.move ?_ rfl rfl ?_ ?_⟩
    · have back := (List.perm_cons_erase running).append_right (w.channel.map Prod.fst ++ w.kept.map Prod.fst)
      have moved := @List.perm_middle _ i (w.inflight.erase i ++ w.channel.map Prod.fst) (w.kept.map Prod.fst)
      have whole := (moved.trans (by simpa using back.symm)).append_left w.queue
      simpa [Working.jobs] using whole
    · intro j t member
      rcases List.mem_append.mp member with old | new
      · exact busy.channel j t old
      · cases outcome with
        | error e => simp [processPrompt] at new
        | ok r =>
          obtain ⟨rfl, rfl⟩ : j = i ∧ t = _ := by simpa [processPrompt] using new
          rfl
    · have old : ∀ j ∈ s.succeeded, j ∈ base ∨ j ∈ w.kept.map Prod.fst ∨
          ∃ t, (j, .ok t) ∈ w.channel ++ [(i, processPrompt (promptAt prompts i) outcome)] ∧ t.success = true := by
        intro j success
        rcases busy.succeeded j success with done_ | kept | ⟨t, sent, success⟩
        · exact .inl done_
        · exact .inr (.inl kept)
        · exact .inr (.inr ⟨t, List.mem_append_left _ sent, success⟩)
      intro j success
      split at success
      · rename_i succeeded
        rcases List.mem_append.mp success with before | now
        · exact old j before
        · obtain rfl := List.mem_singleton.mp now
          cases outcome with
          | error e => cases succeeded
          | ok r => exact .inr (.inr ⟨_, List.mem_append_right _ List.mem_cons_self, succeeded⟩)
      · exact old j success
  · cases taken

section

variable {result : Except String Trajectory} {rest : List (Nat × Except String Trajectory)} {cp : BatchCheckpoint}

/-- The prompt of the next result is one of the run. -/
theorem Busy.next (busy : Busy prompts s w base) (channel : w.channel = (i, result) :: rest) :
    i < prompts.length ∧ i ∉ base ∧ i ∉ w.kept.map Prod.fst := by
  have job : i ∈ w.jobs := by simp [Working.jobs,channel]
  refine ⟨(busy.fresh i job).1, (busy.fresh i job).2, ?_⟩
  have nodup := busy.jobs
  rw [Working.jobs,List.nodup_append] at nodup
  intro kept
  exact nodup.2.2 i (by simp [channel]) i kept rfl

theorem Busy.receive_success {t : Trajectory} (busy : Busy prompts s w base) (channel : w.channel = (i, .ok t) :: rest)
    (success : t.success = true) (completed : ∀ j, j ∈ cp.completed ↔ j ∈ completedOf s.checkpoint ∨ j = i)
    (failed : ∀ j, j ∈ cp.failed ↔ (j ∈ failedOf s.checkpoint ∧ j ≠ i) ∧ j ∉ cp.completed) :
    Busy prompts { s with checkpoint := some cp, run := .working { w with channel := rest, kept := w.kept ++ [(i, t)] } }
      { w with channel := rest, kept := w.kept ++ [(i, t)] } base := by
  have moved : ({ w with channel := rest, kept := w.kept ++ [(i, t)] } : Working).jobs.Perm w.jobs := by
    have whole := (@List.perm_middle _ i (rest.map Prod.fst ++ w.kept.map Prod.fst) []).append_left (w.queue ++ w.inflight)
    simpa [Working.jobs,channel] using whole
  have now (j : Nat) : j ∈ cp.completed ↔ j ∈ base ∨ j ∈ (w.kept ++ [(i, t)]).map Prod.fst := by
    rw [completed,busy.completed,List.map_append,List.mem_append,List.map_singleton,List.mem_singleton,or_assoc]
  refine ⟨now, moved.nodup_iff.mpr busy.jobs, fun j job => busy.fresh j (moved.mem_iff.mp job), ?_, ?_, ?_, ?_, busy.lines,
    busy.resume⟩
  · intro j inside
    rcases busy.cover j inside with old | job | fails
    · exact .inl old
    · exact .inr (.inl (moved.mem_iff.mpr job))
    · by_cases known : j ∈ cp.completed
      · rcases (now j).mp known with old | kept
        · exact .inl old
        · exact .inr (.inl (List.mem_append_right _ kept))
      · exact .inr (.inr ((failed j).mpr ⟨⟨fails, fun same => known ((completed j).mpr (.inr same))⟩, known⟩))
  · intro l member
    rcases List.mem_append.mp member with old | new
    · exact busy.content l old
    · obtain rfl := List.mem_singleton.mp new
      exact ⟨busy.channel i t (by rw [channel]; exact List.mem_cons_self), success⟩
  · intro j u member
    exact busy.channel j u (by rw [channel]; exact List.mem_cons_of_mem _ member)
  · intro j here
    rcases busy.succeeded j here with old | kept | ⟨u, sent, good⟩
    · exact .inl old
    · exact .inr (.inl (by simp at kept ⊢; exact .inl kept))
    · rw [channel] at sent
      rcases List.mem_cons.mp sent with head | tail
      · obtain ⟨rfl, _⟩ := Prod.mk.inj head
        exact .inr (.inl (by simp))
      · exact .inr (.inr ⟨u, tail, good⟩)

theorem Busy.receive_failure (busy : Busy prompts s w base) (channel : w.channel = (i, result) :: rest)
    (failure : ∀ t, result = .ok t → t.success = false)
    (completed : ∀ j, j ∈ cp.completed ↔ j ∈ completedOf s.checkpoint ∧ j ≠ i)
    (failed : ∀ j, j ∈ cp.failed ↔ (j ∈ failedOf s.checkpoint ∨ j = i) ∧ j ∉ cp.completed) :
    Busy prompts { s with checkpoint := some cp, run := .working { w with channel := rest } } { w with channel := rest } base := by
  obtain ⟨inside, new, unkept⟩ := busy.next channel
  have fewer : List.Sublist ({ w with channel := rest } : Working).jobs w.jobs := by
    have tail : (rest.map Prod.fst).Sublist (w.channel.map Prod.fst) := by rw [channel]; exact List.sublist_cons_self _ _
    exact (tail.append_left _).append_right _
  have now (j : Nat) : j ∈ cp.completed ↔ j ∈ base ∨ j ∈ w.kept.map Prod.fst := by
    rw [completed,busy.completed]
    refine ⟨And.left, fun known => ⟨known, ?_⟩⟩
    rintro rfl
    exact known.elim new unkept
  refine ⟨now, busy.jobs.sublist fewer, fun j job => busy.fresh j (fewer.subset job), ?_, busy.content, ?_, ?_, busy.lines,
    busy.resume⟩
  · intro j bound
    by_cases known : j ∈ cp.completed
    · rcases (now j).mp known with old | kept
      · exact .inl old
      · exact .inr (.inl (List.mem_append_right _ kept))
    · rcases busy.cover j bound with old | job | fails
      · exact .inl old
      · by_cases same : j = i
        · exact .inr (.inr ((failed j).mpr ⟨.inr same, known⟩))
        · refine .inr (.inl ?_)
          simp only [Working.jobs,channel,List.map_cons,List.mem_append,List.mem_cons] at job ⊢
          tauto
      · exact .inr (.inr ((failed j).mpr ⟨.inl fails, known⟩))
  · intro j u member
    exact busy.channel j u (by rw [channel]; exact List.mem_cons_of_mem _ member)
  · intro j here
    rcases busy.succeeded j here with old | kept | ⟨u, sent, good⟩
    · exact .inl old
    · exact .inr (.inl kept)
    · rw [channel] at sent
      rcases List.mem_cons.mp sent with head | tail
      · obtain ⟨_, same⟩ := Prod.mk.inj head
        rw [failure u same.symm] at good
        cases good
      · exact .inr (.inr ⟨u, tail, good⟩)

end

/-- A run that is stopped while it is settled. -/
theorem Inv.stop {result : Option (Except Unit (List Trajectory))} {abandoned : List Nat} (inv : Inv prompts s)
    (running : s.run ≠ .idle) (settled : s.run.settled) (ended : ∀ ts, result ≠ some (.ok ts)) :
    Inv prompts { s with run := .idle, result := result, abandoned := abandoned } := by
  have run := inv.run
  cases shape : s.run with
  | idle => exact absurd shape running
  | working w =>
    rw [shape] at run settled
    obtain ⟨base, busy⟩ := run
    obtain ⟨succeeded, lines⟩ := busy.settle settled
    exact ⟨inv.normal, inv.range, succeeded, lines, fun ts same => absurd same (ended ts)⟩
  | writing w =>
    rw [shape] at run settled
    have lines := run.lines
    rw [show w.remaining = [] from settled] at lines
    exact ⟨inv.normal, inv.range, run.succeeded, fun _ => lines, fun ts same => absurd same (ended ts)⟩

theorem Inv.receive {now : String} {loaded ok : Bool} (inv : Inv prompts s)
    (careful : Careful s (.receive now loaded ok)) (taken : step prompts s (.receive now loaded ok) = some s') :
    Inv prompts s' := by
  rw [step] at taken
  split at taken
  · rename_i w working
    split at taken
    · rename_i i result rest channel
      have run := inv.run
      rw [working] at run
      obtain ⟨base, busy⟩ := run
      obtain ⟨inside, _, _⟩ := busy.next channel
      -- a failing write leaves the checkpoint, and the run is settled
      have stopped (success : Bool) (updated : updateCheckpoint s.checkpoint i success now loaded ok = (false, s.checkpoint))
          (failing : ok = false) : Inv prompts (({ s with checkpoint := s.checkpoint } : State).fail w) := by
        refine inv.stop (by rw [working]; nofun) (careful.1 (by simp [Act.stops,failing])) nofun
      have keeps (cp : BatchCheckpoint) (normal : cp.Normal) (w' : Working)
          (among : ∀ j, j ∈ cp.completed ∨ j ∈ cp.failed → j ∈ completedOf s.checkpoint ∨ j ∈ failedOf s.checkpoint ∨ j = i)
          (busy' : Busy prompts { s with checkpoint := some cp, run := .working w' } w' base) :
          Inv prompts { s with checkpoint := some cp, run := .working w' } := by
        refine ⟨fun _ same => Option.some.inj same ▸ normal, ?_, base, busy'⟩
        intro j known
        rcases among j known with old | old | rfl
        · exact inv.range j (.inl old)
        · exact inv.range j (.inr old)
        · exact inside
      cases result with
      | error e =>
        obtain ⟨cp, update, normal, completed, failed⟩ := updateCheckpoint_spec inv.normal i false now loaded ok
        simp only [Bool.false_eq_true,if_false] at completed failed
        simp only [update] at taken
        cases ok <;> cases taken
        · exact stopped false update rfl
        · refine keeps cp normal _ ?_ (busy.receive_failure channel nofun completed failed)
          intro j known
          rw [completed,failed] at known
          tauto
      | ok t =>
        cases success : t.success with
        | true =>
          obtain ⟨cp, update, normal, completed, failed⟩ := updateCheckpoint_spec inv.normal i true now loaded ok
          simp only [if_true] at completed failed
          simp only [success,update,if_true] at taken
          cases ok <;> cases taken
          · exact stopped true update rfl
          · refine keeps cp normal _ ?_ (busy.receive_success channel success completed failed)
            intro j known
            rw [completed,failed] at known
            tauto
        | false =>
          obtain ⟨cp, update, normal, completed, failed⟩ := updateCheckpoint_spec inv.normal i false now loaded ok
          simp only [Bool.false_eq_true,if_false] at completed failed
          simp only [success,update,Bool.false_eq_true,if_false] at taken
          cases ok <;> cases taken
          · exact stopped false update rfl
          · refine keeps cp normal _ ?_ (busy.receive_failure channel (fun u same => by cases same; exact success) completed failed)
            intro j known
            rw [completed,failed] at known
            tauto
    · cases taken
  · cases taken

theorem Busy.closing (busy : Busy prompts s w base) (over_ : w.queue = [] ∧ w.inflight = [] ∧ w.channel = [])
    {sorted : List (Nat × Trajectory)} (perm : sorted.Perm w.kept) {returned : List Trajectory} :
    Closing prompts { s with output := some (if w.resume then s.output.getD [] else []), run := .writing ⟨sorted, returned⟩ }
      ⟨sorted, returned⟩ := by
  obtain ⟨queue, inflight, channel⟩ := over_
  have jobs : w.jobs = w.kept.map Prod.fst := by simp [Working.jobs,queue,inflight,channel]
  have names := perm.map Prod.fst
  have content : ∀ l ∈ sorted, Content prompts l := fun l member => busy.content l (perm.mem_iff.mp member)
  refine ⟨?_, ?_, ?_⟩
  · by_cases none_ : base = []
    · subst none_
      refine ⟨[], by simp [busy.resume,linesOf], ?_, ?_, content⟩
      · exact names.nodup_iff.mpr (jobs ▸ busy.jobs)
      · intro i
        rw [List.nil_append,names.mem_iff]
        exact (Iff.trans (busy.completed i) (by simp)).symm
    · obtain ⟨lines, shape, nodup, all, good⟩ := busy.lines none_
      rw [List.append_nil] at nodup all good
      have resume : w.resume = true := by simp [busy.resume,none_,shape]
      refine ⟨lines, by simp [resume,shape], ?_, ?_, ?_⟩
      · rw [List.map_append,List.nodup_append]
        refine ⟨nodup, names.nodup_iff.mpr (jobs ▸ busy.jobs), ?_⟩
        rintro i old j new rfl
        exact (busy.fresh i (jobs ▸ names.mem_iff.mp new)).2 ((all i).mp old)
      · intro i
        rw [List.map_append,List.mem_append,names.mem_iff,all]
        exact (busy.completed i).symm
      · intro l member
        rcases List.mem_append.mp member with old | new
        · exact good l old
        · exact content l new
  · intro i inside
    rcases busy.cover i inside with old | job | fails
    · exact .inl ((busy.completed i).mpr (.inl old))
    · exact .inl ((busy.completed i).mpr (.inr (jobs ▸ job)))
    · exact .inr fails
  · intro i success
    rcases busy.succeeded i success with old | kept | ⟨t, sent, _⟩
    · exact (busy.completed i).mpr (.inl old)
    · exact (busy.completed i).mpr (.inr kept)
    · rw [channel] at sent
      cases sent

theorem Inv.step {a : Act} (inv : Inv prompts s) (careful : Careful s a) (taken : step prompts s a = some s') :
    Inv prompts s' := by
  cases a with
  | begin numWorkers now ok => exact inv.begin taken
  | pop => exact inv.pop taken
  | finish i outcome => exact inv.finish taken
  | receive now loaded ok => exact inv.receive careful taken
  | openOutput ok =>
    rw [Batch.step] at taken
    split at taken
    · rename_i w working
      split at taken
      · rename_i over_
        cases ok <;> cases taken
        · exact inv.stop (by rw [working]; nofun) (careful.1 rfl) nofun
        · have run := inv.run
          rw [working] at run
          obtain ⟨base, busy⟩ := run
          exact ⟨inv.normal, inv.range, busy.closing over_ (List.mergeSort_perm _ _)⟩
      · cases taken
    · cases taken
  | writeLine ok =>
    rw [Batch.step] at taken
    split at taken
    · rename_i w writing
      split at taken
      · rename_i i t rest remaining
        cases ok <;> cases taken
        · exact inv.stop (by rw [writing]; nofun) (careful.1 rfl) nofun
        · have run := inv.run
          rw [writing] at run
          obtain ⟨lines, shape, nodup, all, good⟩ := run.lines
          have same : (lines ++ [(i, t)]) ++ rest = lines ++ w.remaining := by rw [remaining]; simp
          refine ⟨inv.normal, inv.range, ⟨lines ++ [(i, t)], by simp [shape,linesOf], ?_, ?_, ?_⟩, run.cover, run.succeeded⟩
          · exact same ▸ nodup
          · exact same ▸ all
          · exact same ▸ good
      · cases taken
    · cases taken
  | returnOk =>
    rw [Batch.step] at taken
    split at taken
    · rename_i w writing
      split at taken <;> cases taken
      rename_i none_
      have run := inv.run
      rw [writing] at run
      have lines := run.lines
      rw [none_] at lines
      exact ⟨inv.normal, inv.range, run.succeeded, fun _ => lines, fun _ _ => ⟨lines, run.cover⟩⟩
    · cases taken
  | crash =>
    rw [Batch.step] at taken
    split at taken <;> cases taken
    · rename_i idle
      have run := inv.run
      rw [idle] at run
      refine ⟨inv.normal, inv.range, ?_⟩
      simp only [idle]
      exact ⟨run.succeeded, run.lines, run.finished⟩
    · rename_i running
      exact inv.stop running (careful.1 rfl) nofun
  | late i outcome =>
    rw [Batch.step] at taken
    split at taken <;> cases taken
    rw [careful.2 i outcome rfl]
    have run := inv.run
    refine ⟨inv.normal, inv.range, ?_⟩
    dsimp only
    split
    · rename_i idle
      rw [idle] at run
      exact ⟨run.succeeded, run.lines, run.finished⟩
    · rename_i w working
      rw [working] at run
      obtain ⟨base, busy⟩ := run
      exact ⟨base, busy.completed, busy.jobs, busy.fresh, busy.cover, busy.content, busy.channel, busy.succeeded, busy.lines,
        busy.resume⟩
    · rename_i w writing
      rw [writing] at run
      exact ⟨run.lines, run.cover, run.succeeded⟩

end

/-- What a run takes from the queue no earlier call succeeded on. -/
theorem Inv.notAgain {prompts : List String} {s : State} (inv : Inv prompts s) (a : Act) : NotAgain s a := by
  cases a with
  | pop =>
    intro w i rest working queue success
    have run := inv.run
    rw [working] at run
    obtain ⟨base, busy⟩ := run
    have nodup := busy.jobs
    simp only [Working.jobs,queue,List.cons_append,List.nodup_cons,List.mem_append] at nodup
    rcases busy.succeeded i success with old | kept | ⟨t, sent, _⟩
    · exact (busy.fresh i (by simp [Working.jobs,queue])).2 old
    · exact nodup.1 (.inr kept)
    · exact nodup.1 (.inl (.inr (List.mem_map.mpr ⟨_, sent, rfl⟩)))
  | _ => trivial

theorem start_inv (prompts : List String) (output : Option (List Line)) : Inv prompts (start output) :=
  ⟨nofun, by simp [start,completedOf,failedOf], nofun, fun some_ => absurd rfl some_, nofun⟩

/-- Batches whose runs are only stopped while settled lose and repeat nothing. -/
theorem batch_resumes (prompts : List String) (output : Option (List Line)) {acts : List Act}
    (careful : Meets (step prompts) (start output) Careful acts) :
    (∀ s, Visits (step prompts) (start output) acts s → Finished prompts s) ∧
      Meets (step prompts) (start output) NotAgain acts := by
  have visited : ∀ s, Visits (step prompts) (start output) acts s → Inv prompts s :=
    careful.visited (start_inv prompts output) (fun _ _ _ inv here taken => inv.step here taken)
  refine ⟨fun s here ts idle ended => (visited s here).complete idle ended, ?_⟩
  intro before a after s split here
  exact (visited s ⟨before, a :: after, split, here⟩).notAgain a

def answer (text : String) : Except String BatchExecutionResult := .ok ⟨text, [], 1, true⟩

/-- The crash comes after the checkpoint says that the prompt is done. -/
def crashed : List Act :=
  [.begin 1 "t0" true, .pop, .finish 0 (answer "one"), .receive "t1" true true, .crash,
    .begin 1 "t2" true, .openOutput true, .returnOk]

/-- The crash comes before. -/
def repeated : List Act := [.begin 1 "t0" true, .pop, .finish 0 (answer "one"), .crash, .begin 1 "t1" true]

def Run.isIdle : Run → Bool
  | .idle => true
  | _ => false

/-- The prompts still to be taken from the queue. -/
def Run.queued : Run → List Nat
  | .working w => w.queue
  | _ => []

/-- The line of a completed prompt is lost; a prompt is executed after it succeeded. -/
theorem batch_loses :
    (∃ s, Visits (step ["p"]) (start none) crashed s ∧ ¬ Finished ["p"] s) ∧
    ¬ Meets (step ["p"]) (start none) NotAgain (repeated ++ [.pop]) := by
  constructor
  · have ends : (steps (step ["p"]) (start none) crashed).map (fun s =>
        (s.result, s.output, completedOf s.checkpoint, s.run.isIdle)) =
        some (some (.ok []), some [], [0], true) := by decide +kernel
    obtain ⟨s, run, shape⟩ := Option.map_eq_some_iff.mp ends
    simp only [Prod.mk.injEq] at shape
    obtain ⟨result, output, completed, idle⟩ := shape
    refine ⟨s, visits_last run, fun finished => ?_⟩
    have stopped : s.run = .idle := by
      cases phase : s.run with
      | idle => rfl
      | working w => simp [phase,Run.isIdle] at idle
      | writing w => simp [phase,Run.isIdle] at idle
    obtain ⟨lines, shape, perm, _⟩ := (finished [] stopped result).lines
    rw [completed] at perm
    rw [output] at shape
    have none_ : lines = [] := by simpa using (Option.some.inj shape).symm
    simp [none_] at perm
  · intro again
    have ends : (steps (step ["p"]) (start none) repeated).map (fun s =>
        (s.succeeded, s.run.queued)) = some ([0], [0]) := by decide
    obtain ⟨s, run, shape⟩ := Option.map_eq_some_iff.mp ends
    simp only [Prod.mk.injEq] at shape
    obtain ⟨succeeded, queue⟩ := shape
    cases phase : s.run with
    | idle => simp [phase,Run.queued] at queue
    | writing w => simp [phase,Run.queued] at queue
    | working w =>
      simp only [phase,Run.queued] at queue
      exact again repeated .pop [] s rfl run w 0 [] phase queue (by simp [succeeded])

theorem careful_of_quiet {prompts : List String} {s : State} {acts : List Act}
    (quiet : ∀ a ∈ acts, a.stops = false ∧ ∀ i outcome, a ≠ .late i outcome) : Meets (step prompts) s Careful acts := by
  intro before a after s' split _
  obtain ⟨goes, timely⟩ := quiet a (by rw [split]; simp)
  refine ⟨fun stops => ?_, fun i outcome late => absurd late (timely i outcome)⟩
  rw [goes] at stops
  cases stops

/-- A run is stopped by a crash at once, the next one finishes a prompt and fails another, the
last one finishes that too. -/
def resumed : List Act :=
  [.begin 1 "t0" true, .crash, .begin 1 "t1" true, .pop, .finish 0 (answer "one"), .receive "t2" true true, .pop,
    .finish 1 (.error "down"), .receive "t3" true true, .openOutput true, .writeLine true, .returnOk,
    .begin 1 "t4" true, .pop, .finish 1 (answer "two"), .receive "t5" true true, .openOutput true, .writeLine true, .returnOk]

theorem resumed_finished : (∀ s, Visits (step ["p", "q"]) (start none) resumed s → Finished ["p", "q"] s) ∧
    Meets (step ["p", "q"]) (start none) NotAgain resumed := by
  refine batch_resumes ["p", "q"] none (meets_cons rfl ⟨nofun, nofun⟩ (meets_cons rfl ⟨fun _ => ⟨rfl, nofun⟩, nofun⟩
    (careful_of_quiet ?_)))
  simp [Act.stops]

end Zaion.Batch
