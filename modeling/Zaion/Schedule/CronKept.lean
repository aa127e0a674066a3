import Zaion.Lib.JsonText
import Zaion.Lib.Steps
import Zaion.Schedule.Cron

/-! What the cron store keeps of its jobs. A file that cannot be parsed is loaded as an empty store, so
that a call that asks for no job of an id goes on with nothing. -/
namespace Zaion.Schedule

open Lib

/-- There is a file, and no store can be made of it. -/
def Unparsed (text : StoreText) (file : Option StoreFile) : Prop :=
  (∃ f, file = some f) ∧ CronEngine.stored text file = none

def idsIn (text : StoreText) (file : Option StoreFile) : List String :=
  ((CronEngine.stored text file).getD ⟨[]⟩).jobs.map CronJob.jobId

/-- A call loses no job but the one it removes, and fails without effect where the file cannot be parsed. -/
structure Spares (text : StoreText) (before : Option StoreFile) (op : CronOp) (called : Called (List CronJob)) : Prop where
  keeps : ∀ id, op ≠ .remove id → (idsIn text before).count id ≤ (idsIn text called.file).count id
  refuses : Unparsed text before → called.file = before ∧ ∃ e, called.result = .error e

/-- The call fails where there is no job of its id. -/
def CronOp.asksForJob : CronOp → Bool
  | .remove _ | .setEnabled _ _ | .edit _ _ _ _ | .setMetadata _ _ _ _ _ _ _ _ | .runNow _ => true
  | .add _ _ _ | .list | .tick => false

/-- How often a call saves at most. -/
def CronOp.saves (store : CronStore) : CronOp → Nat
  | .list => 0
  | .tick => (store.jobs.filter CronJob.enabled).length
  | .add _ _ _ => 1
  | .remove jobId | .setEnabled jobId _ | .edit jobId _ _ _ | .setMetadata jobId _ _ _ _ _ _ _ | .runNow jobId =>
    if jobId ∈ store.jobs.map CronJob.jobId then 1 else 0

/-- Nothing goes wrong at a save. -/
def CronEnv.Passes (env : CronEnv) : Prop := env.write = .done ∧ env.append = .ok ()

def CronEnv.Breaks (env : CronEnv) : Prop := ∃ e left, env.write = .broken e left

/-- The condition on a call: on a file that cannot be parsed it asks for a job, or it is refused its only write; on one
with jobs to keep no write that it comes to breaks off. -/
structure Careful (text : StoreText) (before : Option StoreFile) (op : CronOp) (envs : Nat → CronEnv) : Prop where
  parsed : Unparsed text before →
    op.asksForJob = true ∨ (∃ name schedule command, op = .add name schedule command) ∧ ∃ e, (envs 0).write = .refused e
  unbroken : ∀ store, CronEngine.stored text before = some store → (∃ job ∈ store.jobs, op ≠ .remove job.jobId) →
    ∀ i < op.saves store, (∀ k < i, (envs k).Passes) → ¬ (envs i).Breaks

section

open CronEngine

variable {text : StoreText} {principalId : String} {file : Option StoreFile} {store : CronStore}

theorem idsIn_of_stored (here : stored text file = some store) : idsIn text file = store.jobs.map CronJob.jobId := by
  rw [idsIn,here]
  rfl

theorem readable_of_stored (here : stored text file = some store) : ∀ f, file = some f → f.readable = true := by
  rintro f rfl
  by_contra closed
  simp [stored,StoreFile.readToString,closed] at here

theorem changeFirst_ids {jobId : String} {change : CronJob → CronJob} (same : ∀ job, (change job).jobId = job.jobId)
    {jobs changed : List CronJob} {job : CronJob} (found : changeFirst jobId change jobs = some (job, changed)) :
    changed.map CronJob.jobId = jobs.map CronJob.jobId ∧ jobId ∈ jobs.map CronJob.jobId := by
  induction jobs generalizing changed with
  | nil => cases found
  | cons first rest ih =>
    unfold changeFirst at found
    split at found
    · next here =>
      cases found
      simp [same,here]
    · obtain ⟨⟨_, later⟩, inside, equal⟩ := Option.map_eq_some_iff.mp found
      cases equal
      obtain ⟨ids, member⟩ := ih inside
      exact ⟨by simp [ids], List.mem_cons_of_mem _ member⟩

theorem stored_saveAndAppend {α : Type} (readsBack : text.ReadsBack) {env : CronEnv} (whole : ¬ env.Breaks)
    (here : stored text file = some store) (next : CronStore) (event : CronEvent) (value : α) :
    stored text (saveAndAppend text env file next event value).file = some store ∨
      stored text (saveAndAppend text env file next event value).file = some next := by
  cases write : env.write with
  | refused e =>
    left
    simp [saveAndAppend,save,write,here]
  | broken e left => exact absurd ⟨e, left, write⟩ whole
  | done =>
    right
    rw [← stored_save readsBack (readable_of_stored here) next]
    cases append : env.append with
    | error e => simp [saveAndAppend,save,write,append]
    | ok _ => simp [saveAndAppend,save,write,append]

theorem passes_of_saveAndAppend {α : Type} {env : CronEnv} {next : CronStore} {event : CronEvent} {value v : α}
    (returned : (saveAndAppend text env file next event value).result = .ok v) : env.Passes := by
  cases write : env.write with
  | refused e => simp [saveAndAppend,save,write] at returned
  | broken e left => simp [saveAndAppend,save,write] at returned
  | done =>
    cases append : env.append with
    | error e => simp [saveAndAppend,save,write,append] at returned
    | ok _ => exact ⟨write, append⟩

section

variable {env : CronEnv} {jobId : String} {change : CronJob → CronJob} {event : CronJob → CronEvent}

theorem changeJob_ids (readsBack : text.ReadsBack) (same : ∀ job, (change job).jobId = job.jobId)
    (here : stored text file = some store) (whole : jobId ∈ store.jobs.map CronJob.jobId → ¬ env.Breaks) :
    ∃ store', stored text (changeJob text env file jobId change event).file = some store' ∧
      store'.jobs.map CronJob.jobId = store.jobs.map CronJob.jobId := by
  unfold changeJob
  rw [load,here,Option.getD_some]
  split
  · exact ⟨store, here, rfl⟩
  · next job jobs found =>
    obtain ⟨ids, member⟩ := changeFirst_ids same found
    rcases stored_saveAndAppend readsBack (whole member) here ⟨jobs⟩ (event job) job with old | new
    · exact ⟨store, old, rfl⟩
    · exact ⟨⟨jobs⟩, new, ids⟩

theorem passes_of_changeJob {v : CronJob} (returned : (changeJob text env file jobId change event).result = .ok v) :
    env.Passes := by
  unfold changeJob at returned
  split at returned
  · cases returned
  · exact passes_of_saveAndAppend returned

theorem changeJob_of_empty (empty : stored text file = none) :
    (changeJob text env file jobId change event).file = file ∧
      ∃ e, (changeJob text env file jobId change event).result = .error e := by
  simp [changeJob,load,empty,changeFirst]

end

/-- A tick that comes to no write that breaks off keeps the ids. -/
theorem runAll_ids (readsBack : text.ReadsBack) {envs : Nat → CronEnv} {i : Nat} {jobs : List CronJob}
    (here : stored text file = some store) (passed : ∀ k < i, (envs k).Passes)
    (whole : ∀ n < i + jobs.length, (∀ k < n, (envs k).Passes) → ¬ (envs n).Breaks) :
    ∃ store', stored text (runAll text envs file i jobs).file = some store' ∧
      store'.jobs.map CronJob.jobId = store.jobs.map CronJob.jobId := by
  induction jobs generalizing file store i with
  | nil => exact ⟨store, here, rfl⟩
  | cons job rest ih =>
    have first : ∃ store', stored text (runNow text (envs i) file job.jobId).file = some store' ∧
        store'.jobs.map CronJob.jobId = store.jobs.map CronJob.jobId :=
      changeJob_ids readsBack (fun _ => rfl) here (fun _ => whole i (by simp) passed)
    unfold runAll
    split
    · next failed => rwa [failed] at first
    · next after events run done =>
      rw [done] at first
      obtain ⟨next, loaded, ids⟩ := first
      have through : (envs i).Passes := passes_of_changeJob (congrArg Called.result done)
      have passed' : ∀ k < i + 1, (envs k).Passes := by
        intro k earlier
        rcases Nat.lt_succ_iff_lt_or_eq.mp earlier with before | rfl
        · exact passed k before
        · exact through
      have whole' : ∀ n < i + 1 + rest.length, (∀ k < n, (envs k).Passes) → ¬ (envs n).Breaks := by
        intro n bound
        rw [List.length_cons] at whole
        exact whole n (by omega)
      obtain ⟨last, saved, same⟩ := ih loaded passed' whole'
      exact ⟨last, saved, same.trans ids⟩

theorem count_of_ids {called : Option StoreFile} (here : stored text file = some store)
    (kept : ∃ after, stored text called = some after ∧ after.jobs.map CronJob.jobId = store.jobs.map CronJob.jobId)
    (id : String) : (idsIn text file).count id ≤ (idsIn text called).count id := by
  obtain ⟨after, saved, ids⟩ := kept
  rw [idsIn_of_stored here,idsIn_of_stored saved,ids]

/-- A save keeps an id the new store has no fewer jobs of. -/
theorem count_saveAndAppend {α : Type} (readsBack : text.ReadsBack) {env : CronEnv} (whole : ¬ env.Breaks)
    (here : stored text file = some store) {next : CronStore} (event : CronEvent) (value : α) {id : String}
    (kept : (store.jobs.map CronJob.jobId).count id ≤ (next.jobs.map CronJob.jobId).count id) :
    (idsIn text file).count id ≤ (idsIn text (saveAndAppend text env file next event value).file).count id := by
  rw [idsIn_of_stored here]
  rcases stored_saveAndAppend readsBack whole here next event value with old | new
  · rw [idsIn_of_stored old]
  · rw [idsIn_of_stored new]
    exact kept

theorem count_remove {jobs : List CronJob} {jobId id : String} (other : id ≠ jobId) :
    ((jobs.filter fun job => decide (job.jobId ≠ jobId)).map CronJob.jobId).count id =
      (jobs.map CronJob.jobId).count id := by
  have kept : (jobs.filter fun job => decide (job.jobId ≠ jobId)).map CronJob.jobId =
      (jobs.map CronJob.jobId).filter fun i => decide (i ≠ jobId) := by
    rw [List.filter_map]
    rfl
  rw [kept,List.count_filter (by simpa using other)]

theorem filter_length_of_absent {jobs : List CronJob} {jobId : String} (absent : jobId ∉ jobs.map CronJob.jobId) :
    (jobs.filter fun job => decide (job.jobId ≠ jobId)).length = jobs.length := by
  rw [List.filter_eq_self.mpr]
  intro job member
  have other : job.jobId ≠ jobId := fun equal => absent (List.mem_map.mpr ⟨job, member, equal⟩)
  simpa using other

theorem runAll_of_refused {envs : Nat → CronEnv} (refused : ∀ i, ∃ e, (envs i).write = .refused e) {i : Nat}
    (jobs : List CronJob) : (runAll text envs file i jobs).file = file := by
  cases jobs with
  | nil => rfl
  | cons job rest =>
    obtain ⟨e, write⟩ := refused i
    have same : (runNow text (envs i) file job.jobId).file = file := by
      unfold runNow changeJob
      split
      · rfl
      · simp [saveAndAppend,save,write]
    have failed : ∀ v, (runNow text (envs i) file job.jobId).result ≠ .ok v := by
      intro v returned
      have through := (passes_of_changeJob returned).1
      rw [write] at through
      cases through
    unfold runAll
    split
    · next done =>
      rw [done] at same
      exact same
    · next v done => exact absurd (congrArg Called.result done) (failed v)

/-- Every call keeps the ids, one more may come and one be removed. -/
theorem call_keeps (readsBack : text.ReadsBack) {op : CronOp} {envs : Nat → CronEnv} (here : stored text file = some store)
    (whole : ∀ i < op.saves store, (∀ k < i, (envs k).Passes) → ¬ (envs i).Breaks) {id : String} (other : op ≠ .remove id) :
    (idsIn text file).count id ≤ (idsIn text (call text principalId envs file op).file).count id := by
  have once : 0 < op.saves store → ¬ (envs 0).Breaks :=
    fun saves => whole 0 saves fun k none_ => absurd none_ (Nat.not_lt_zero k)
  cases op with
  | add name schedule command =>
    simp only [call,Called.jobs,add]
    apply count_saveAndAppend readsBack (once Nat.one_pos) here
    rw [load,here,Option.getD_some,List.map_append,List.count_append]
    exact Nat.le_add_right _ _
  | remove jobId =>
    have different : id ≠ jobId := fun equal => other (congrArg CronOp.remove equal.symm)
    simp only [call,Called.jobs,remove,load,here,Option.getD_some]
    split
    · exact le_rfl
    · next shorter =>
      have member : jobId ∈ store.jobs.map CronJob.jobId := by
        by_contra absent
        exact shorter (filter_length_of_absent absent)
      apply count_saveAndAppend readsBack (once (by simp [CronOp.saves,member])) here
      rw [count_remove different]
  | setEnabled jobId enabled =>
    simp only [call,Called.jobs,setEnabled]
    refine count_of_ids here (changeJob_ids readsBack ?_ here ?_) id
    · exact fun _ => rfl
    · exact fun member => once (by simp [CronOp.saves,member])
  | edit jobId name schedule command =>
    simp only [call,Called.jobs,edit]
    refine count_of_ids here (changeJob_ids readsBack ?_ here ?_) id
    · exact fun _ => rfl
    · exact fun member => once (by simp [CronOp.saves,member])
  | setMetadata jobId deliver repeats skills addSkills removeSkills clearSkills script =>
    simp only [call,Called.jobs,setMetadata]
    refine count_of_ids here (changeJob_ids readsBack ?_ here ?_) id
    · exact fun _ => rfl
    · exact fun member => once (by simp [CronOp.saves,member])
  | list => exact le_rfl
  | runNow jobId =>
    simp only [call,Called.jobs,runNow]
    refine count_of_ids here (changeJob_ids readsBack ?_ here ?_) id
    · exact fun _ => rfl
    · exact fun member => once (by simp [CronOp.saves,member])
  | tick =>
    refine count_of_ids here (runAll_ids readsBack here ?_ ?_) id
    · exact fun k none_ => absurd none_ (Nat.not_lt_zero k)
    · rw [Nat.zero_add,list,load,here,Option.getD_some]
      exact whole

theorem call_refuses {op : CronOp} {envs : Nat → CronEnv} (empty : stored text file = none) (asks : op.asksForJob = true) :
    (call text principalId envs file op).file = file ∧ ∃ e, (call text principalId envs file op).result = .error e := by
  have failed : ∀ {α : Type} {called : Called α} {jobs : α → List CronJob}, called.file = file ∧ (∃ e, called.result = .error e) →
      (called.jobs jobs).file = file ∧ ∃ e, (called.jobs jobs).result = .error e := by
    rintro α called jobs ⟨same, e, error⟩
    exact ⟨same, e, by rw [Called.jobs,error]; rfl⟩
  cases op with
  | add name schedule command => cases asks
  | list => cases asks
  | tick => cases asks
  | remove jobId => exact failed (by simp [remove,load,empty])
  | setEnabled jobId enabled => exact failed (changeJob_of_empty empty)
  | edit jobId name schedule command => exact failed (changeJob_of_empty empty)
  | setMetadata jobId deliver repeats skills addSkills removeSkills clearSkills script =>
    exact failed (changeJob_of_empty empty)
  | runNow jobId => exact failed (changeJob_of_empty empty)

theorem spares_of_careful (readsBack : text.ReadsBack) {op : CronOp} {envs : Nat → CronEnv}
    (careful : Careful text file op envs) : Spares text file op (call text principalId envs file op) where
  keeps id other := by
    cases here : stored text file with
    | none =>
      rw [idsIn,here]
      exact Nat.zero_le _
    | some store =>
      by_cases more : ∃ job ∈ store.jobs, op ≠ .remove job.jobId
      · exact call_keeps readsBack here (careful.unbroken store here more) other
      · have gone : id ∉ store.jobs.map CronJob.jobId := by
          rw [List.mem_map]
          rintro ⟨job, member, rfl⟩
          exact more ⟨job, member, other⟩
        rw [idsIn_of_stored here,List.count_eq_zero.mpr gone]
        exact Nat.zero_le _
  refuses unparsed := by
    rcases careful.parsed unparsed with asks | ⟨⟨name, schedule, command, rfl⟩, e, refused⟩
    · exact call_refuses unparsed.2 asks
    · simp [call,Called.jobs,add,saveAndAppend,save,refused,Except.map]

end

/-- A call as a step of a run, with what it meets. -/
def callStep (text : StoreText) (principalId : String) (file : Option StoreFile) (act : CronOp × (Nat → CronEnv)) :
    Option (Option StoreFile) :=
  some (CronEngine.call text principalId act.2 file act.1).file

section

variable {text : StoreText} {principalId : String} {start last : Option StoreFile} {acts : List (CronOp × (Nat → CronEnv))}

def CarefulRun (text : StoreText) (principalId : String) (start : Option StoreFile)
    (acts : List (CronOp × (Nat → CronEnv))) : Prop :=
  Meets (callStep text principalId) start (fun file act => Careful text file act.1 act.2) acts

theorem run_keeps (readsBack : text.ReadsBack) (careful : CarefulRun text principalId start acts)
    (run : steps (callStep text principalId) start acts = some last) {id : String}
    (kept : ∀ act ∈ acts, act.1 ≠ .remove id) : (idsIn text start).count id ≤ (idsIn text last).count id := by
  induction acts using List.reverseRecOn generalizing last with
  | nil => exact Option.some.inj run ▸ le_rfl
  | append_singleton acts act ih =>
    obtain ⟨file, before, taken⟩ := steps_concat_some run
    obtain ⟨earlier, here⟩ := (meets_concat before).mp careful
    have until_ := ih earlier before fun act member => kept act (List.mem_append_left _ member)
    have spares : Spares text file act.1 (CronEngine.call text principalId act.2 file act.1) :=
      spares_of_careful readsBack here
    have next := spares.keeps id (kept act (by simp))
    rw [Option.some.inj taken] at next
    exact until_.trans next

/-- As long as no call has an effect. -/
def Untouched (start file : Option StoreFile) : Prop := file = start

theorem run_unparsed (readsBack : text.ReadsBack) (careful : CarefulRun text principalId start acts)
    (run : steps (callStep text principalId) start acts = some last) (unparsed : Unparsed text start) : last = start := by
  have stays : ∀ file act next, Untouched start file → Careful text file act.1 act.2 →
      callStep text principalId file act = some next → Untouched start next := by
    rintro file act next rfl here taken
    rw [← Option.some.inj taken]
    exact ((spares_of_careful readsBack here).refuses unparsed).1
  have same : Untouched start last := careful.invariant run rfl stays
  exact same

/-- In a run of careful calls each of them spares the jobs, and so does the whole run. -/
theorem careful_run_spares (principalId : String) (readsBack : text.ReadsBack)
    (careful : CarefulRun text principalId start acts)
    (run : steps (callStep text principalId) start acts = some last) :
    (∀ before act after file, acts = before ++ act :: after →
      steps (callStep text principalId) start before = some file →
      Spares text file act.1 (CronEngine.call text principalId act.2 file act.1)) ∧
    (∀ id, (∀ act ∈ acts, act.1 ≠ .remove id) → (idsIn text start).count id ≤ (idsIn text last).count id) ∧
    (Unparsed text start → last = start) := by
  refine ⟨?_, ?_, ?_⟩
  · intro before act after file split here
    exact spares_of_careful readsBack (careful before act after file split here)
  · exact fun id kept => run_keeps readsBack careful run kept
  · exact fun unparsed => run_unparsed readsBack careful run unparsed

/-- The tree written without blanks. -/
def compactText : StoreText where
  read := JsonText.ofText
  pretty := JsonText.toText

theorem compactText_readsBack : compactText.ReadsBack := by
  intro v plain
  exact JsonText.ofText_toText (Bool.and_eq_true_iff.mp plain).1

/-- Saves that are answered as said. -/
def envsWith (write : StoreWrite) : Nat → CronEnv := fun _ =>
  ⟨"2024-01-01T00:00:00+00:00", "1", write, .ok ()⟩

def dailyJob : CronJob := CronEngine.newJob "p" (envsWith .done 0) "n" "@daily" "c"

def oneJob : CronStore := ⟨[dailyJob]⟩

def oneJobFile : Option StoreFile := (CronEngine.save compactText .done none oneJob).1

theorem stored_oneJobFile : CronEngine.stored compactText oneJobFile = some oneJob := by
  apply CronEngine.stored_save compactText_readsBack
  rintro f none_
  cases none_

/-- A tick whose save is refused. -/
theorem refused_run_spares :
    (idsIn compactText oneJobFile).count "cron-1" ≤ (idsIn compactText oneJobFile).count "cron-1" ∧
    Spares compactText oneJobFile .tick
      (CronEngine.call compactText "p" (envsWith (.refused "read-only file system")) oneJobFile .tick) := by
  have careful : Careful compactText oneJobFile .tick (envsWith (.refused "read-only file system")) := by
    refine ⟨fun unparsed => ?_, ?_⟩
    · rw [Unparsed,stored_oneJobFile] at unparsed
      cases unparsed.2
    · rintro store - - i - - ⟨e, left, broken⟩
      cases broken
  have once : callStep compactText "p" oneJobFile (.tick, envsWith (.refused "read-only file system")) = some oneJobFile := by
    have refused : ∀ i, ∃ e, (envsWith (.refused "read-only file system") i).write = .refused e := fun _ => ⟨_, rfl⟩
    exact congrArg some (runAll_of_refused refused _)
  have run : steps (callStep compactText "p") oneJobFile [(.tick, envsWith (.refused "read-only file system"))] =
      some oneJobFile := by
    rw [steps,once]
    rfl
  have spared := careful_run_spares "p" compactText_readsBack (meets_cons once careful meets_nil) run
  exact ⟨spared.2.1 "cron-1" (by simp), spared.1 [] _ [] _ rfl rfl⟩

/-- A store as a crash leaves it, cut in the first job. -/
def cutText : List Char := ['\x7b', '"', 'j', 'o', 'b', 's', '"', ':', '[', '\x7b', '"', 'j', 'o', 'b']

def cutFile : Option StoreFile := some ⟨some (String.ofList cutText), true⟩

theorem stored_cutFile : CronEngine.stored compactText cutFile = none := by
  have unread : JsonText.readValue cutText.length cutText = none := by decide
  simp [CronEngine.stored,cutFile,StoreFile.readToString,compactText,JsonText.ofText,unread]

theorem cutFile_unparsed : Unparsed compactText cutFile := ⟨⟨_, rfl⟩, stored_cutFile⟩

/-- A tick says that all is well, and a new job takes the place of all that was there. -/
theorem cut_file_overwritten : Unparsed compactText cutFile ∧
    (CronEngine.call compactText "p" (envsWith .done) cutFile .tick).result = .ok [] ∧
    ¬ Spares compactText cutFile .tick (CronEngine.call compactText "p" (envsWith .done) cutFile .tick) ∧
    CronEngine.stored compactText (CronEngine.call compactText "p" (envsWith .done) cutFile (.add "n" "@daily" "c")).file =
      some oneJob ∧
    ¬ Spares compactText cutFile (.add "n" "@daily" "c")
      (CronEngine.call compactText "p" (envsWith .done) cutFile (.add "n" "@daily" "c")) := by
  have nothing : CronEngine.load compactText cutFile = ⟨[]⟩ := by rw [CronEngine.load,stored_cutFile]; rfl
  have ticked : (CronEngine.call compactText "p" (envsWith .done) cutFile .tick).result = .ok [] := by
    simp [CronEngine.call,CronEngine.tick,CronEngine.list,nothing,CronEngine.runAll]
  have added : (CronEngine.call compactText "p" (envsWith .done) cutFile (.add "n" "@daily" "c")).result =
      .ok [dailyJob] := by
    simp [dailyJob,CronEngine.call,Called.jobs,CronEngine.add,CronEngine.saveAndAppend,envsWith,CronEngine.save,Except.map]
  refine ⟨cutFile_unparsed, ticked, ?_, ?_, ?_⟩
  · intro spares
    obtain ⟨-, e, error⟩ := spares.refuses cutFile_unparsed
    rw [ticked] at error
    cases error
  · have readable : ∀ f, cutFile = some f → f.readable = true := by
      rintro f here
      cases here
      rfl
    rw [← CronEngine.stored_save compactText_readsBack readable]
    simp [CronEngine.call,Called.jobs,CronEngine.add,CronEngine.saveAndAppend,nothing,envsWith,CronEngine.save,oneJob,
        dailyJob]
  · intro spares
    obtain ⟨-, e, error⟩ := spares.refuses cutFile_unparsed
    rw [added] at error
    cases error

end

end Zaion.Schedule
