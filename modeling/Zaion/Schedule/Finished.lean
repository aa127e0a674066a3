import Zaion.Lib.Table
import Zaion.Schedule.Tasks
import Mathlib.Data.List.Perm.Basic

/-! What any interleaving of scheduler calls keeps, as long as no worker writes back a copy of
a task that has left the background map. -/
namespace Zaion.Schedule

open Lib

def poppedFrom (popped : List (String × ScheduledTask)) (sessionKey : String) : List ScheduledTask :=
  (popped.filter (fun entry => decide (entry.1 = sessionKey))).map Prod.snd

def enqueuedFor (enqueued : List ScheduledTask) (sessionKey : String) : List ScheduledTask :=
  enqueued.filter (fun task => decide (task.mode = .queue) && decide (task.sessionKey = sessionKey))

def Queued (b : Board) (id : String) : Prop := ∃ sessionKey, ∃ task ∈ b.scheduler.queueOf sessionKey, task.taskId = id

def InBackground (b : Board) (id : String) : Prop := ∃ task, b.scheduler.backgroundTasks.lookup id = some task

def InHistory (b : Board) (id : String) : Prop := ∃ sessionKey, ∃ task ∈ b.scheduler.historyOf sessionKey, task.taskId = id

/-- Pending or running, in a queue or in the background. -/
def Active (b : Board) (id : String) : Prop :=
  (∃ sessionKey, ∃ task ∈ b.scheduler.queueOf sessionKey, task.taskId = id ∧ task.status.active = true) ∨
    ∃ task, b.scheduler.backgroundTasks.lookup id = some task ∧ task.status.active = true

structure Orderly (b : Board) : Prop where
  onePlace : ∀ id, ¬ (Queued b id ∧ InBackground b id) ∧ ¬ (Queued b id ∧ InHistory b id) ∧
    ¬ (InBackground b id ∧ InHistory b id)
  stays : ∀ id ∈ b.finished, ¬ Active b id
  once : b.entered.Nodup
  fifo : ∀ sessionKey, (poppedFrom b.popped sessionKey).Sublist (enqueuedFor b.enqueued sessionKey)

/-- A copy is written back only while its task is in the background map, and never makes a
task that was cancelled or completed pending or running. -/
def InTime (b : Board) : TaskCall → Prop
  | .updateBackgroundTask _ modified => (b.scheduler.backgroundTasks.lookup modified.taskId).isSome ∧
      (modified.taskId ∈ b.finished → modified.status.active = false)
  | _ => True

structure Sound (b : Board) : Prop where
  distinct : (b.enqueued.map ScheduledTask.taskId).Nodup
  queued : ∀ key, ∀ task ∈ b.scheduler.queueOf key, task ∈ b.enqueued ∧ task.sessionKey = key
  background : ∀ id task, b.scheduler.backgroundTasks.lookup id = some task →
    task.taskId = id ∧ id ∈ b.enqueued.map ScheduledTask.taskId
  apart : ∀ key, ∀ task ∈ b.scheduler.queueOf key, b.scheduler.backgroundTasks.lookup task.taskId = none
  gone : ∀ id ∈ b.entered, id ∈ b.enqueued.map ScheduledTask.taskId ∧ ¬ Queued b id ∧ ¬ InBackground b id
  once : b.entered.Nodup
  history : ∀ key, ∀ task ∈ b.scheduler.historyOf key, task.taskId ∈ b.entered
  finished : ∀ id ∈ b.finished, id ∈ b.entered ∨
    ∃ task, b.scheduler.backgroundTasks.lookup id = some task ∧ task.status.active = false
  fifo : ∀ key, (poppedFrom b.popped key ++ b.scheduler.queueOf key).Sublist (enqueuedFor b.enqueued key)

section

variable {b b' : Board} {s : TaskScheduler} {id : String} {call : TaskCall}

theorem sound_new : Sound .new := by
  constructor <;> simp [Board.new,TaskScheduler.new,TaskScheduler.queueOf,TaskScheduler.historyOf,poppedFrom,enqueuedFor]

theorem Sound.orderly (sound : Sound b) : Orderly b := by
  constructor
  · intro id
    refine ⟨?_, ?_, ?_⟩
    · rintro ⟨⟨key, task, member, rfl⟩, other, found⟩
      rw [sound.apart key task member] at found
      cases found
    · rintro ⟨queued, key, task, member, rfl⟩
      exact (sound.gone _ (sound.history key task member)).2.1 queued
    · rintro ⟨background, key, task, member, rfl⟩
      exact (sound.gone _ (sound.history key task member)).2.2 background
  · intro id member active
    rcases sound.finished id member with entered | ⟨task, found, ended⟩
    · obtain ⟨_, notQueued, notBackground⟩ := sound.gone id entered
      rcases active with ⟨key, task, queued, same, _⟩ | ⟨task, found, _⟩
      · exact notQueued ⟨key, task, queued, same⟩
      · exact notBackground ⟨task, found⟩
    · rcases active with ⟨key, other, queued, rfl, _⟩ | ⟨other, found', running⟩
      · rw [sound.apart key other queued] at found
        cases found
      · obtain rfl := Option.some.inj (found.symm.trans found')
        rw [running] at ended
        cases ended
  · exact sound.once
  · intro key
    exact (List.sublist_append_left _ _).trans (sound.fifo key)

/-- A session given another queue. -/
def TaskScheduler.withQueue (s : TaskScheduler) (key : String) (queue : List ScheduledTask) : TaskScheduler :=
  { s with queueTasks := s.queueTasks.insert key queue }

def TaskScheduler.withBackground (s : TaskScheduler) (task : ScheduledTask) : TaskScheduler :=
  { s with backgroundTasks := s.backgroundTasks.insert task.taskId task }

theorem queueOf_insert (s : TaskScheduler) (key other : String) (queue : List ScheduledTask) :
    (s.withQueue key queue).queueOf other = if other = key then queue else s.queueOf other := by
  by_cases same : other = key
  · subst same
    simp [TaskScheduler.queueOf,TaskScheduler.withQueue]
  · simp [TaskScheduler.queueOf,TaskScheduler.withQueue,same]

theorem queueOf_erase (s : TaskScheduler) (key other : String) :
    { s with queueTasks := s.queueTasks.erase key }.queueOf other = if other = key then [] else s.queueOf other := by
  by_cases same : other = key
  · subst same
    simp [TaskScheduler.queueOf]
  · simp [TaskScheduler.queueOf,same]

/-- A task with an id never used, put into its queue. -/
theorem Sound.enqueueQueue {task : ScheduledTask} (sound : Sound b) (fresh : task.taskId ∉ b.enqueued.map ScheduledTask.taskId)
    (mode : task.mode = .queue) : Sound { b with
      scheduler := b.scheduler.withQueue task.sessionKey (b.scheduler.queueOf task.sessionKey ++ [task])
      enqueued := b.enqueued ++ [task] } := by
  have queues (key : String) (t : ScheduledTask)
      (member : t ∈ (b.scheduler.withQueue task.sessionKey (b.scheduler.queueOf task.sessionKey ++ [task])).queueOf key) :
      t ∈ b.scheduler.queueOf key ∨ (t = task ∧ key = task.sessionKey) := by
    rw [queueOf_insert] at member
    by_cases same : key = task.sessionKey
    · rw [if_pos same] at member
      rcases List.mem_append.mp member with before | new
      · exact .inl (same ▸ before)
      · exact .inr ⟨List.mem_singleton.mp new, same⟩
    · rw [if_neg same] at member
      exact .inl member
  have used (id : String) (known : id ∈ b.enqueued.map ScheduledTask.taskId) :
      id ∈ (b.enqueued ++ [task]).map ScheduledTask.taskId := by
    rw [List.map_append]
    exact List.mem_append_left _ known
  constructor
  · rw [List.map_append]
    refine List.nodup_append.mpr ⟨sound.distinct, List.nodup_singleton _, ?_⟩
    intro x before y new same
    rw [List.map_singleton,List.mem_singleton] at new
    exact fresh (new ▸ same ▸ before)
  · intro key t member
    rcases queues key t member with before | ⟨rfl, rfl⟩
    · exact ⟨List.mem_append_left _ (sound.queued key t before).1, (sound.queued key t before).2⟩
    · exact ⟨List.mem_append_right _ (List.mem_singleton_self t), rfl⟩
  · intro id t found
    exact ⟨(sound.background id t found).1, used id (sound.background id t found).2⟩
  · intro key t member
    rcases queues key t member with before | ⟨rfl, rfl⟩
    · exact sound.apart key t before
    · cases found : b.scheduler.backgroundTasks.lookup t.taskId with
      | none => exact found
      | some other => exact absurd (sound.background _ other found).2 fresh
  · intro id entered
    obtain ⟨known, notQueued, notBackground⟩ := sound.gone id entered
    refine ⟨used id known, ?_, notBackground⟩
    rintro ⟨key, t, member, rfl⟩
    rcases queues key t member with before | ⟨rfl, rfl⟩
    · exact notQueued ⟨key, t, before, rfl⟩
    · exact fresh known
  · exact sound.once
  · exact sound.history
  · exact sound.finished
  · intro key
    have order := sound.fifo key
    by_cases same : key = task.sessionKey
    · subst same
      have mine : enqueuedFor (b.enqueued ++ [task]) task.sessionKey = enqueuedFor b.enqueued task.sessionKey ++ [task] := by
        simp [enqueuedFor,mode]
      have longer := order.append (List.Sublist.refl [task])
      rw [List.append_assoc,← mine] at longer
      simpa only [queueOf_insert,if_true] using longer
    · have mine : enqueuedFor (b.enqueued ++ [task]) key = enqueuedFor b.enqueued key := by
        simp [enqueuedFor,Ne.symm same]
      rw [← mine] at order
      simpa only [queueOf_insert,if_neg same] using order

/-- The same, put into the background map. -/
theorem Sound.enqueueBackground {task : ScheduledTask} (sound : Sound b)
    (fresh : task.taskId ∉ b.enqueued.map ScheduledTask.taskId) (mode : task.mode = .background) : Sound { b with
      scheduler := b.scheduler.withBackground task
      enqueued := b.enqueued ++ [task] } := by
  have used (id : String) (known : id ∈ b.enqueued.map ScheduledTask.taskId) :
      id ∈ (b.enqueued ++ [task]).map ScheduledTask.taskId := by
    rw [List.map_append]
    exact List.mem_append_left _ known
  have here : task.taskId ∈ (b.enqueued ++ [task]).map ScheduledTask.taskId :=
    List.mem_map_of_mem (List.mem_append_right _ (List.mem_singleton_self task))
  constructor
  · rw [List.map_append]
    refine List.nodup_append.mpr ⟨sound.distinct, List.nodup_singleton _, ?_⟩
    intro x before y new same
    rw [List.map_singleton,List.mem_singleton] at new
    exact fresh (new ▸ same ▸ before)
  · intro key t member
    exact ⟨List.mem_append_left _ (sound.queued key t member).1, (sound.queued key t member).2⟩
  · intro id t found
    rcases Table.lookup_insert_cases found with ⟨rfl, rfl⟩ | ⟨_, found⟩
    · exact ⟨rfl, here⟩
    · exact ⟨(sound.background id t found).1, used id (sound.background id t found).2⟩
  · intro key t member
    have other : t.taskId ≠ task.taskId := by
      intro same
      exact fresh (same ▸ List.mem_map_of_mem (sound.queued key t member).1)
    exact (AList.lookup_insert_ne other).trans (sound.apart key t member)
  · intro id entered
    obtain ⟨known, notQueued, notBackground⟩ := sound.gone id entered
    refine ⟨used id known, notQueued, ?_⟩
    rintro ⟨t, found⟩
    rcases Table.lookup_insert_cases found with ⟨rfl, _⟩ | ⟨_, found⟩
    · exact fresh known
    · exact notBackground ⟨t, found⟩
  · exact sound.once
  · exact sound.history
  · intro id member
    rcases sound.finished id member with entered | ⟨t, found, ended⟩
    · exact .inl entered
    · have other : id ≠ task.taskId := by
        rintro rfl
        exact fresh (sound.background _ t found).2
      exact .inr ⟨t, (AList.lookup_insert_ne other).trans found, ended⟩
  · intro key
    have mine : enqueuedFor (b.enqueued ++ [task]) key = enqueuedFor b.enqueued key := by
      simp [enqueuedFor,mode]
    have order := sound.fifo key
    rw [← mine] at order
    exact order

/-- Tasks leave the queues, some of them for the history. -/
theorem Sound.shrink {scheduler : TaskScheduler} {popped : List (String × ScheduledTask)} {ids : List String} (sound : Sound b)
    (smaller : ∀ key, (scheduler.queueOf key).Sublist (b.scheduler.queueOf key))
    (background : scheduler.backgroundTasks = b.scheduler.backgroundTasks)
    (left : ∀ id ∈ ids, Queued b id ∧ ∀ key, ∀ task ∈ scheduler.queueOf key, task.taskId ≠ id) (once : ids.Nodup)
    (history : ∀ key, ∀ task ∈ scheduler.historyOf key, task.taskId ∈ b.entered ++ ids)
    (fifo : ∀ key, (poppedFrom popped key ++ scheduler.queueOf key).Sublist (enqueuedFor b.enqueued key)) :
    Sound { b with scheduler := scheduler, popped := popped, entered := b.entered ++ ids, finished := b.finished ++ ids } := by
  have known (id : String) (queued : Queued b id) : id ∈ b.enqueued.map ScheduledTask.taskId := by
    obtain ⟨key, task, member, rfl⟩ := queued
    exact List.mem_map_of_mem (sound.queued key task member).1
  constructor
  · exact sound.distinct
  · intro key task member
    exact sound.queued key task ((smaller key).mem member)
  · intro id task found
    exact sound.background id task (background ▸ found)
  · intro key task member
    exact background ▸ sound.apart key task ((smaller key).mem member)
  · intro id entered
    rcases List.mem_append.mp entered with before | new
    · obtain ⟨used, notQueued, notBackground⟩ := sound.gone id before
      refine ⟨used, ?_, ?_⟩
      · rintro ⟨key, task, member, same⟩
        exact notQueued ⟨key, task, (smaller key).mem member, same⟩
      · rintro ⟨task, found⟩
        exact notBackground ⟨task, background ▸ found⟩
    · obtain ⟨queued, absent⟩ := left id new
      refine ⟨known id queued, ?_, ?_⟩
      · rintro ⟨key, task, member, same⟩
        exact absent key task member same
      · rintro ⟨task, found⟩
        obtain ⟨key, other, member, rfl⟩ := queued
        have none := sound.apart key other member
        rw [← background,show scheduler.backgroundTasks.lookup other.taskId = some task from found] at none
        cases none
  · refine List.nodup_append.mpr ⟨sound.once, once, ?_⟩
    rintro x before y new rfl
    exact (sound.gone x before).2.1 (left x new).1
  · exact history
  · intro id member
    rcases List.mem_append.mp member with before | new
    · rcases sound.finished id before with entered | ⟨task, found, ended⟩
      · exact .inl (List.mem_append_left _ entered)
      · exact .inr ⟨task, by rw [← found,← background], ended⟩
    · exact .inl (List.mem_append_right _ new)
  · exact fifo

/-- A task of the background map goes to the history. -/
theorem Sound.leaveBackground {task : ScheduledTask} {scheduler : TaskScheduler} (sound : Sound b)
    (found : b.scheduler.backgroundTasks.lookup id = some task)
    (queues : ∀ key, scheduler.queueOf key = b.scheduler.queueOf key)
    (background : scheduler.backgroundTasks = b.scheduler.backgroundTasks.erase id)
    (history : ∀ key, ∀ task ∈ scheduler.historyOf key, task.taskId ∈ b.entered ++ [id]) :
    Sound (b.leave scheduler [id]) := by
  have others (id' : String) (t : ScheduledTask) (here : scheduler.backgroundTasks.lookup id' = some t) :
      id' ≠ id ∧ b.scheduler.backgroundTasks.lookup id' = some t := by
    rw [background] at here
    have other : id' ≠ id := by
      rintro rfl
      rw [AList.lookup_erase] at here
      cases here
    rw [AList.lookup_erase_ne other] at here
    exact ⟨other, here⟩
  constructor
  · exact sound.distinct
  · intro key t member
    exact sound.queued key t (queues key ▸ member)
  · intro id' t here
    exact sound.background id' t (others id' t here).2
  · intro key t member
    have none := sound.apart key t (queues key ▸ member)
    cases here : scheduler.backgroundTasks.lookup t.taskId with
    | none => exact here
    | some other =>
      rw [(others _ other here).2] at none
      cases none
  · intro id' entered
    rcases List.mem_append.mp entered with before | new
    · obtain ⟨used, notQueued, notBackground⟩ := sound.gone id' before
      refine ⟨used, ?_, ?_⟩
      · rintro ⟨key, t, member, same⟩
        exact notQueued ⟨key, t, queues key ▸ member, same⟩
      · rintro ⟨t, here⟩
        exact notBackground ⟨t, (others id' t here).2⟩
    · obtain rfl := List.mem_singleton.mp new
      refine ⟨(sound.background id' task found).2, ?_, ?_⟩
      · rintro ⟨key, t, member, rfl⟩
        have none := sound.apart key t (queues key ▸ member)
        rw [found] at none
        cases none
      · rintro ⟨t, here⟩
        exact (others id' t here).1 rfl
  · refine List.nodup_append.mpr ⟨sound.once, List.nodup_singleton id, ?_⟩
    rintro x before y new rfl
    obtain rfl := List.mem_singleton.mp new
    exact (sound.gone x before).2.2 ⟨task, found⟩
  · exact history
  · intro id' member
    by_cases same : id' = id
    · exact .inl (List.mem_append_right _ (List.mem_singleton.mpr same))
    · rcases List.mem_append.mp member with before | new
      · rcases sound.finished id' before with entered | ⟨t, here, ended⟩
        · exact .inl (List.mem_append_left _ entered)
        · refine .inr ⟨t, ?_, ended⟩
          exact background ▸ (AList.lookup_erase_ne same).trans here
      · exact absurd (List.mem_singleton.mp new) same
  · intro key
    exact queues key ▸ sound.fifo key

/-- A copy written back in time. -/
theorem Sound.update {modified : ScheduledTask} (sound : Sound b)
    (inTime : (b.scheduler.backgroundTasks.lookup modified.taskId).isSome ∧
      (modified.taskId ∈ b.finished → modified.status.active = false)) :
    Sound { b with
      scheduler := b.scheduler.withBackground modified
      finished := if modified.status.settled then b.finished ++ [modified.taskId] else b.finished } := by
  obtain ⟨present, kept⟩ := inTime
  obtain ⟨old, stored⟩ := Option.isSome_iff_exists.mp present
  constructor
  · exact sound.distinct
  · exact sound.queued
  · intro id task found
    rcases Table.lookup_insert_cases found with ⟨rfl, rfl⟩ | ⟨_, found⟩
    · exact ⟨rfl, (sound.background _ old stored).2⟩
    · exact sound.background id task found
  · intro key task member
    have none := sound.apart key task member
    have other : task.taskId ≠ modified.taskId := by
      intro same
      rw [same,stored] at none
      cases none
    exact (AList.lookup_insert_ne other).trans none
  · intro id entered
    obtain ⟨used, notQueued, notBackground⟩ := sound.gone id entered
    refine ⟨used, notQueued, ?_⟩
    rintro ⟨task, found⟩
    rcases Table.lookup_insert_cases found with ⟨rfl, _⟩ | ⟨_, found⟩
    · exact notBackground ⟨old, stored⟩
    · exact notBackground ⟨task, found⟩
  · exact sound.once
  · exact sound.history
  · have settled : modified.status.settled = true → modified.status.active = false := by
      cases modified.status <;> decide
    have before (id : String) (member : id ∈ b.finished) : id ∈ b.entered ∨
        ∃ task, (b.scheduler.withBackground modified).backgroundTasks.lookup id = some task ∧ task.status.active = false := by
      by_cases same : id = modified.taskId
      · subst same
        exact .inr ⟨modified, AList.lookup_insert _, kept member⟩
      · rcases sound.finished id member with entered | ⟨task, found, ended⟩
        · exact .inl entered
        · exact .inr ⟨task, (AList.lookup_insert_ne same).trans found, ended⟩
    intro id member
    dsimp only at member
    split at member
    · rename_i ended
      rcases List.mem_append.mp member with old | new
      · exact before id old
      · obtain rfl := List.mem_singleton.mp new
        exact .inr ⟨modified, AList.lookup_insert _, settled ended⟩
    · exact before id member
  · exact sound.fifo

theorem mem_addToHistory {task x : ScheduledTask} {key : String} (member : task ∈ (s.addToHistory x).historyOf key) :
    task ∈ s.historyOf key ∨ task = x := by
  unfold TaskScheduler.addToHistory TaskScheduler.historyOf at member
  by_cases same : key = x.sessionKey
  · subst same
    simp only [AList.lookup_insert,Option.getD_some] at member
    rcases List.mem_append.mp (List.mem_of_mem_drop member) with before | new
    · exact .inl before
    · exact .inr (List.mem_singleton.mp new)
  · rw [AList.lookup_insert_ne same] at member
    exact .inl member

/-- A whole queue to the history. -/
theorem cancelAll_frame (queue : List ScheduledTask) (now : Nat) (s : TaskScheduler) :
    let s' := queue.foldl (fun s task => s.addToHistory (task.markCancelled now)) s
    s'.queueTasks = s.queueTasks ∧ s'.backgroundTasks = s.backgroundTasks ∧
      ∀ key, ∀ task ∈ s'.historyOf key, task ∈ s.historyOf key ∨ ∃ t ∈ queue, task.taskId = t.taskId := by
  induction queue generalizing s with
  | nil => exact ⟨rfl, rfl, fun _ _ member => .inl member⟩
  | cons first rest ih =>
    obtain ⟨queues, background, history⟩ := ih (s.addToHistory (first.markCancelled now))
    refine ⟨queues, background, ?_⟩
    intro key task member
    rcases history key task member with before | ⟨t, inside, same⟩
    · rcases mem_addToHistory before with old | rfl
      · exact .inl old
      · exact .inr ⟨first, List.mem_cons_self, rfl⟩
    · exact .inr ⟨t, List.mem_cons_of_mem _ inside, same⟩

/-- Queued tasks with one id are one task, in one queue. -/
theorem Sound.same {key key' : String} {t t' : ScheduledTask} (sound : Sound b) (first : t ∈ b.scheduler.queueOf key)
    (second : t' ∈ b.scheduler.queueOf key') (same : t.taskId = t'.taskId) : t = t' ∧ key = key' := by
  obtain ⟨inside, session⟩ := sound.queued key t first
  obtain ⟨inside', session'⟩ := sound.queued key' t' second
  have one : t = t' := List.inj_on_of_nodup_map sound.distinct inside inside' same
  exact ⟨one, session ▸ session' ▸ one ▸ rfl⟩

theorem Sound.queue_distinct (sound : Sound b) (key : String) :
    ((b.scheduler.queueOf key).map ScheduledTask.taskId).Nodup := by
  have inside : (b.scheduler.queueOf key).Sublist b.enqueued :=
    (List.sublist_append_right _ _).trans ((sound.fifo key).trans List.filter_sublist)
  exact sound.distinct.sublist (inside.map _)

theorem Sound.popped {key : String} {task : ScheduledTask} {rest : List ScheduledTask} (sound : Sound b)
    (front : b.scheduler.queueOf key = task :: rest) :
    Sound { b with scheduler := b.scheduler.withQueue key rest, popped := b.popped ++ [(key, task)] } := by
  have smaller (k : String) : ((b.scheduler.withQueue key rest).queueOf k).Sublist (b.scheduler.queueOf k) := by
    rw [queueOf_insert]
    by_cases same : k = key
    · rw [if_pos same,same,front]
      exact List.sublist_cons_self task rest
    · rw [if_neg same]
  have shrunk : Sound { b with
      scheduler := b.scheduler.withQueue key rest
      popped := b.popped ++ [(key, task)]
      entered := b.entered ++ []
      finished := b.finished ++ [] } := by
    refine sound.shrink smaller rfl (List.forall_mem_nil _) List.nodup_nil ?_ ?_
    · rw [List.append_nil]
      exact sound.history
    · intro k
      have order := sound.fifo k
      rw [queueOf_insert]
      by_cases same : k = key
      · subst same
        rw [front] at order
        simpa [poppedFrom] using order
      · simpa [poppedFrom,same,Ne.symm same] using order
  simpa only [List.append_nil] using shrunk

theorem findQueued_some {key : String} {queue : List ScheduledTask} (found : s.findQueued id = some (key, queue)) :
    s.queueOf key = queue ∧ ∃ task, queue.find? (TaskScheduler.hasId id) = some task ∧ task ∈ queue ∧ task.taskId = id := by
  obtain ⟨entry, here, same⟩ := Option.map_eq_some_iff.mp found
  obtain ⟨rfl, rfl⟩ := Prod.mk.inj same
  have stored : s.queueTasks.lookup entry.1 = some entry.2 := AList.mem_lookup_iff.mpr (List.mem_of_find?_eq_some here)
  have some_ := List.find?_some here
  obtain ⟨task, inside, named⟩ := List.any_eq_true.mp some_
  refine ⟨by rw [TaskScheduler.queueOf,stored]; rfl, ?_⟩
  cases first : entry.2.find? (TaskScheduler.hasId id) with
  | none => exact absurd named (List.find?_eq_none.mp first task inside)
  | some t =>
    have named := List.find?_some first
    exact ⟨t, rfl, List.mem_of_find?_eq_some first, of_decide_eq_true named⟩

theorem Sound.cancelQueued {key : String} {task : ScheduledTask} (now : Nat) (sound : Sound b)
    (member : task ∈ b.scheduler.queueOf key) (named : task.taskId = id) :
    Sound (b.leave ((b.scheduler.withQueue key ((b.scheduler.queueOf key).eraseP (TaskScheduler.hasId id))).addToHistory
      (task.markCancelled now)) [id]) := by
  have smaller (k : String) : ((b.scheduler.withQueue key
      ((b.scheduler.queueOf key).eraseP (TaskScheduler.hasId id))).queueOf k).Sublist (b.scheduler.queueOf k) := by
    rw [queueOf_insert]
    by_cases same : k = key
    · rw [if_pos same,same]
      exact List.eraseP_sublist
    · rw [if_neg same]
  refine sound.shrink smaller rfl ?_ (List.nodup_singleton id) ?_ ?_
  · intro id' new
    obtain rfl := List.mem_singleton.mp new
    refine ⟨⟨key, task, member, named⟩, ?_⟩
    intro k t inside same
    obtain ⟨rfl, rfl⟩ := sound.same ((smaller k).mem inside) member (same.trans named.symm)
    have left : t ∈ (b.scheduler.queueOf k).eraseP (TaskScheduler.hasId id') := by
      have here : t ∈ (b.scheduler.withQueue k ((b.scheduler.queueOf k).eraseP (TaskScheduler.hasId id'))).queueOf k := inside
      rwa [queueOf_insert,if_pos rfl] at here
    obtain ⟨a, before, after, earlier, first, split, erased⟩ :=
      List.exists_of_eraseP member (p := TaskScheduler.hasId id') (decide_eq_true same)
    rw [erased] at left
    have distinct := sound.queue_distinct k
    rw [split,List.map_append,List.map_cons] at distinct
    have one : a.taskId = t.taskId := (of_decide_eq_true first).trans same.symm
    rcases List.mem_append.mp left with early | late
    · exact earlier t early (decide_eq_true same)
    · have later := (List.nodup_cons.mp (List.nodup_append.mp distinct).2.1).1
      exact later (one ▸ List.mem_map_of_mem late)
  · intro k t inside
    rcases mem_addToHistory inside with old | rfl
    · exact List.mem_append_left _ (sound.history k t old)
    · exact List.mem_append_right _ (List.mem_singleton.mpr named)
  · intro k
    exact ((List.Sublist.refl _).append (smaller k)).trans (sound.fifo k)

theorem Sound.cleared (key : String) (now : Nat) (sound : Sound b) :
    Sound (b.leave ((b.scheduler.queueOf key).foldl (fun s task => s.addToHistory (task.markCancelled now))
      { b.scheduler with queueTasks := b.scheduler.queueTasks.erase key })
        ((b.scheduler.queueOf key).map ScheduledTask.taskId)) := by
  obtain ⟨queues, background, history⟩ := cancelAll_frame (b.scheduler.queueOf key) now
    { b.scheduler with queueTasks := b.scheduler.queueTasks.erase key }
  generalize (b.scheduler.queueOf key).foldl (fun s task => s.addToHistory (task.markCancelled now))
    { b.scheduler with queueTasks := b.scheduler.queueTasks.erase key } = cleared at queues background history ⊢
  have left (k : String) : cleared.queueOf k = if k = key then [] else b.scheduler.queueOf k := by
    rw [← queueOf_erase b.scheduler key k,TaskScheduler.queueOf,queues]
    rfl
  have smaller (k : String) : (cleared.queueOf k).Sublist (b.scheduler.queueOf k) := by
    rw [left]
    split
    · exact List.nil_sublist _
    · exact List.Sublist.refl _
  refine sound.shrink smaller background ?_ (sound.queue_distinct key) ?_ ?_
  · intro id member
    obtain ⟨task, inside, rfl⟩ := List.mem_map.mp member
    refine ⟨⟨key, task, inside, rfl⟩, ?_⟩
    intro k t here same
    obtain ⟨rfl, rfl⟩ := sound.same ((smaller k).mem here) inside same
    rw [left,if_pos rfl] at here
    cases here
  · intro k t member
    rcases history k t member with old | ⟨task, inside, same⟩
    · exact List.mem_append_left _ (sound.history k t old)
    · exact List.mem_append_right _ (same ▸ List.mem_map_of_mem inside)
  · intro k
    exact ((List.Sublist.refl _).append (smaller k)).trans (sound.fifo k)

theorem Sound.step (sound : Sound b) (inTime : InTime b call) (taken : b.step call = some b') : Sound b' := by
  cases call with
  | enqueue task =>
    simp only [Board.step] at taken
    split at taken
    · cases taken
    · rename_i fresh
      obtain rfl := Option.some.inj taken
      have fresh := (not_or.mp fresh).1
      unfold TaskScheduler.enqueue
      cases mode : task.mode with
      | queue => exact sound.enqueueQueue fresh mode
      | background => exact sound.enqueueBackground fresh mode
  | popQueueTask key =>
    simp only [Board.step,TaskScheduler.popQueueTask] at taken
    cases queue : b.scheduler.queueTasks.lookup key with
    | none =>
      simp only [queue] at taken
      exact Option.some.inj taken ▸ sound
    | some tasks =>
      cases tasks with
      | nil =>
        simp only [queue] at taken
        exact Option.some.inj taken ▸ sound
      | cons task rest =>
        simp only [queue] at taken
        rw [← Option.some.inj taken]
        exact sound.popped (by rw [TaskScheduler.queueOf,queue]; rfl)
  | getBackgroundTask id =>
    simp only [Board.step] at taken
    split at taken <;> rw [← Option.some.inj taken]
    · exact ⟨sound.distinct, sound.queued, sound.background, sound.apart, sound.gone, sound.once, sound.history,
        sound.finished, sound.fifo⟩
    · exact sound
  | updateBackgroundTask copy modified =>
    simp only [Board.step] at taken
    split at taken
    · rw [← Option.some.inj taken]
      exact sound.update inTime
    · cases taken
  | completeBackgroundTask id =>
    simp only [Board.step,TaskScheduler.completeBackgroundTask] at taken
    cases found : b.scheduler.backgroundTasks.lookup id with
    | none =>
      simp only [found] at taken
      exact Option.some.inj taken ▸ sound
    | some task =>
      simp only [found] at taken
      rw [← Option.some.inj taken]
      refine sound.leaveBackground found (fun _ => rfl) rfl ?_
      intro key t member
      rcases mem_addToHistory member with old | rfl
      · exact List.mem_append_left _ (sound.history key t old)
      · exact List.mem_append_right _ (List.mem_singleton.mpr (sound.background id t found).1)
  | cancelTask id now =>
    simp only [Board.step,TaskScheduler.cancelTask] at taken
    cases queued : b.scheduler.findQueued id with
    | some entry =>
      obtain ⟨key, queue⟩ := entry
      obtain ⟨same, task, first, member, named⟩ := findQueued_some queued
      simp only [queued,first] at taken
      rw [← Option.some.inj taken,← same]
      exact sound.cancelQueued now (same ▸ member) named
    | none =>
      cases found : b.scheduler.backgroundTasks.lookup id with
      | none =>
        simp only [queued,found] at taken
        exact Option.some.inj taken ▸ sound
      | some task =>
        simp only [queued,found] at taken
        rw [← Option.some.inj taken]
        refine sound.leaveBackground found (fun _ => rfl) rfl ?_
        intro key t member
        rcases mem_addToHistory member with old | rfl
        · exact List.mem_append_left _ (sound.history key t old)
        · exact List.mem_append_right _ (List.mem_singleton.mpr (sound.background id task found).1)
  | clearQueue key now =>
    simp only [Board.step,TaskScheduler.clearQueue] at taken
    rw [← Option.some.inj taken]
    cases queue : b.scheduler.queueTasks.lookup key with
    | none =>
      have empty : b.scheduler.queueOf key = [] := by rw [TaskScheduler.queueOf,queue]; rfl
      simpa [Board.leave,empty] using sound
    | some tasks =>
      have here : b.scheduler.queueOf key = tasks := by rw [TaskScheduler.queueOf,queue]; rfl
      have cleared := sound.cleared key now
      rw [here] at cleared ⊢
      exact cleared

end

/-- In any interleaving of scheduler calls in which every copy is written back in time, a task
is in one place at most, a cancelled or completed one is never pending or running again, it
goes to the history once, and the tasks of a session are popped in the order they came. -/
theorem finished_stays_finished {calls : List TaskCall} (inTime : Meets Board.step .new InTime calls) :
    ∀ b, Visits Board.step .new calls b → Orderly b := by
  intro b visited
  exact (inTime.visited sound_new (fun _ _ _ sound here taken => sound.step here taken) b visited).orderly

def sampleTask : ScheduledTask := .new "0a1b2c3d4e5f" "session-1" "index the repository" .background 1767225600

/-- A worker reads its task, the user cancels it, the worker writes back that it runs. -/
def lateWriteBack : List TaskCall := [.enqueue sampleTask, .getBackgroundTask sampleTask.taskId,
  .cancelTask sampleTask.taskId 1767225601, .updateBackgroundTask 0 (sampleTask.markRunning 1767225602)]

theorem cancelled_task_runs_again : ∃ b, steps Board.step .new lateWriteBack = some b ∧ ¬ Orderly b := by
  refine ⟨_, rfl, ?_⟩
  intro orderly
  refine orderly.stays sampleTask.taskId (List.mem_singleton_self _) (.inr ?_)
  exact ⟨sampleTask.markRunning 1767225602, AList.lookup_insert _, rfl⟩

instance (b : Board) (call : TaskCall) : Decidable (InTime b call) :=
  match call with
  | .updateBackgroundTask _ _ => inferInstanceAs (Decidable (_ ∧ _))
  | .enqueue _ | .popQueueTask _ | .getBackgroundTask _ | .completeBackgroundTask _ | .cancelTask _ _
  | .clearQueue _ _ => inferInstanceAs (Decidable True)

/-- The same calls, the user last. -/
def promptWriteBack : List TaskCall := [.enqueue sampleTask, .getBackgroundTask sampleTask.taskId,
  .updateBackgroundTask 0 (sampleTask.markRunning 1767225601), .cancelTask sampleTask.taskId 1767225602]

theorem promptWriteBack_orderly : ∃ b, steps Board.step .new promptWriteBack = some b ∧ Orderly b := by
  have inTime : Meets Board.step .new InTime promptWriteBack := meets_of_check (by decide)
  exact ⟨_, rfl, finished_stays_finished inTime _ (visits_last rfl)⟩

end Zaion.Schedule
