import Zaion.Agent.Lossless
import Zaion.Lib.Size

/-! What spilling does to the size of a turn. A spilled result leaves a notice behind, which is longer
than a short result; and a result that quotes the notice's tag counts as stored. -/
namespace Zaion.Agent

open Lib

section

variable (host : Host) (config : ToolResultBudgetConfig) (target : HostToolResultStorageTarget)

/-- The notice that stands for a spilled message. -/
def noticeOf (message : ToolResultMessage) : String :=
  buildPersistedMessage (generatePreview message.content config.previewBytes).1
    (generatePreview message.content config.previewBytes).2 message.content.utf8ByteSize
    (resultPath host target.root message.toolCallId)

/-- What a spilled message says of its file. -/
def noticeMetadata (message : ToolResultMessage) : ToolResultMetadata :=
  let (preview, hasMore) := generatePreview message.content config.previewBytes
  ⟨message.toolName, message.toolCallId, message.content.utf8ByteSize, preview.utf8ByteSize, hasMore, true,
    some (resultPath host target.root message.toolCallId), target.environmentId, target.environmentKind, preview⟩

/-- The message once spilled. -/
def spilled (message : ToolResultMessage) : ToolResultMessage :=
  { message with
    content := noticeOf host config target message
    metadata := some (noticeMetadata host config target message) }

/-- The notice is the shorter of the two. -/
def Shrinkable (message : ToolResultMessage) : Prop :=
  (noticeOf host config target message).utf8ByteSize < message.content.utf8ByteSize

/-- The message stands for a file: its metadata says so, or it is a notice itself. -/
def Spilled (message : ToolResultMessage) : Prop :=
  message.metadata.any (fun metadata => metadata.stored) = true ∨ ∃ path, Names message.content path

/-- An iteration of the loop: what it has still to look at, its running total, and the messages so far. -/
structure Loop where
  candidates : List (Nat × Nat)
  total : Nat
  disk : Disk
  messages : List ToolResultMessage

/-- The next iteration, if the loop goes on. -/
def Loop.next (loop : Loop) : Option Loop :=
  match loop.candidates with
  | [] => none
  | (i, originalSize) :: candidates =>
    if loop.total ≤ config.turnBudgetBytes then none
    else
      match loop.messages[i]? with
      | none => none
      | some message =>
        match maybeStoreToolResultWithTarget host message.content message.toolName message.toolCallId 0 config target
            loop.disk with
        | (_, .error _) => none
        | (disk, .ok stored) =>
          some ⟨candidates, loop.total - originalSize + stored.injectableContent.utf8ByteSize, disk,
            loop.messages.set i { message with
              content := stored.injectableContent
              metadata := some stored.metadata }⟩

/-- The first iteration. -/
def Loop.start (messages : List ToolResultMessage) (disk : Disk) : Loop :=
  ⟨budgetCandidates messages, totalSize messages, disk, messages⟩

/-- What is left of the loop to run. -/
def Loop.finish (loop : Loop) : Disk × List ToolResultMessage × Except StorageError Unit :=
  spillCandidates host config target loop.candidates loop.total loop.disk loop.messages

/-- The iterations of the loop. -/
def Iterates (messages : List ToolResultMessage) (disk : Disk) (loop : Loop) : Prop :=
  Relation.ReflTransGen (fun a b => a.next host config target = some b) (Loop.start messages disk) loop

/-- What enforcing the budget of a turn should come to: no larger total; a running total that is the true one and
never below what is taken off it; messages that are spilled or untouched; and at the end a total within the budget,
or nothing left that spilling would make smaller. -/
structure Shrinks (messages : List ToolResultMessage) (disk : Disk)
    (outcome : Disk × List ToolResultMessage × Except StorageError Unit) : Prop where
  total : totalSize outcome.2.1 ≤ totalSize messages
  counted : ∀ loop, Iterates host config target messages disk loop →
    loop.finish host config target = outcome ∧ loop.total = totalSize loop.messages ∧
      ∀ candidate ∈ loop.candidates.head?, candidate.2 ≤ loop.total
  untouched : ∀ i : Nat, outcome.2.1[i]? = messages[i]? ∨
    outcome.2.1[i]? = messages[i]?.map (spilled host config target)
  enough : outcome.2.2 = .ok () → totalSize outcome.2.1 ≤ config.turnBudgetBytes ∨
    ∀ message ∈ outcome.2.1, Shrinkable host config target message → Spilled message

/-- How many of a number of writes succeed before the first that fails. -/
def writable : List (Option (Option String)) → Nat → Nat
  | _, 0 => 0
  | [], n + 1 => n + 1
  | some _ :: _, _ + 1 => 0
  | none :: faults, n + 1 => writable faults n + 1

/-- The size of a candidate's notice. -/
def noticeSize (messages : List ToolResultMessage) (candidate : Nat × Nat) : Nat :=
  (messages[candidate.1]?.map (fun message => (noticeOf host config target message).utf8ByteSize)).getD 0

/-- What candidates come to as they are, and as notices. -/
def sizes (candidates : List (Nat × Nat)) : Nat := (candidates.map Prod.snd).sum

def notices (messages : List ToolResultMessage) (candidates : List (Nat × Nat)) : Nat :=
  (candidates.map (noticeSize host config target messages)).sum

/-- The candidates that can be written. -/
def spillable (messages : List ToolResultMessage) (disk : Disk) : List (Nat × Nat) :=
  (budgetCandidates messages).take (writable disk.faults (budgetCandidates messages).length)

/-- Notices for some of the largest results, down to none of them, bring the turn within its budget. -/
def Reachable (messages : List ToolResultMessage) (disk : Disk) : Prop :=
  ∃ count ≤ writable disk.faults (budgetCandidates messages).length,
    totalSize messages + notices host config target messages ((budgetCandidates messages).take count) ≤
      config.turnBudgetBytes + sizes ((budgetCandidates messages).take count)

/-- A message that counts as stored and has no file behind it is no longer than its notice. -/
def QuotesShort (messages : List ToolResultMessage) : Prop :=
  ∀ message ∈ messages, message.alreadyStored = true → Shrinkable host config target message → Spilled message

/-- The messages with some candidates spilled. -/
def spillEach (candidates : List (Nat × Nat)) (messages : List ToolResultMessage) : List ToolResultMessage :=
  messages.mapIdx (fun i message =>
    if i ∈ candidates.map Prod.fst then spilled host config target message else message)

/-- Candidates that are still as they were measured. -/
structure Pending (messages : List ToolResultMessage) (candidates : List (Nat × Nat)) : Prop where
  once : (candidates.map Prod.fst).Nodup
  each : ∀ candidate ∈ candidates, ∃ message, messages[candidate.1]? = some message ∧
    message.content.utf8ByteSize = candidate.2 ∧ message.content ≠ ""

/-- Where the loop stops: within the budget, or at the first write that fails, or with nothing left. -/
structure Stops (candidates : List (Nat × Nat)) (messages : List ToolResultMessage) (disk : Disk)
    (outcome : Disk × List ToolResultMessage × Except StorageError Unit) (count : Nat) : Prop where
  possible : count ≤ writable disk.faults candidates.length
  shown : outcome.2.1 = spillEach host config target (candidates.take count) messages
  balance : totalSize outcome.2.1 + sizes (candidates.take count) =
    totalSize messages + notices host config target messages (candidates.take count)
  stops : (totalSize outcome.2.1 ≤ config.turnBudgetBytes ∧ outcome.2.2 = .ok ()) ∨
    (count = writable disk.faults candidates.length ∧ (outcome.2.2 = .ok () ↔ count = candidates.length) ∧
      ∀ fewer ≤ count, config.turnBudgetBytes + sizes (candidates.take fewer) <
        totalSize messages + notices host config target messages (candidates.take fewer))

end

/-! Sizes -/

section

variable {messages : List ToolResultMessage} {message other : ToolResultMessage}

theorem totalSize_eq (messages : List ToolResultMessage) :
    totalSize messages = (messages.map fun message => message.content.utf8ByteSize).sum := by
  rw [totalSize,List.sum_eq_foldl,List.foldl_map]

theorem totalSize_set {i : Nat} (there : messages[i]? = some message) (other : ToolResultMessage) :
    totalSize (messages.set i other) + message.content.utf8ByteSize =
      totalSize messages + other.content.utf8ByteSize := by
  rw [totalSize_eq,totalSize_eq]
  induction messages generalizing i with
  | nil => cases there
  | cons first rest ih =>
    cases i with
    | zero =>
      cases there
      simp only [List.set_cons_zero,List.map_cons,List.sum_cons]
      omega
    | succ i =>
      have later := ih there
      simp only [List.set_cons_succ,List.map_cons,List.sum_cons]
      omega

theorem size_le_total {i : Nat} (there : messages[i]? = some message) :
    message.content.utf8ByteSize ≤ totalSize messages := by
  have emptied := totalSize_set there (.new message.toolName message.toolCallId "")
  have blank : (ToolResultMessage.new message.toolName message.toolCallId "").content.utf8ByteSize = 0 := rfl
  omega

theorem writable_nil (n : Nat) : writable [] n = n := by cases n <;> rfl

/-- A write succeeds and leaves one less to come, or none can. -/
theorem write_cases (disk : Disk) (path content : String) :
    (disk.write path content = (disk.set path (some content), .ok ()) ∧
      ∀ n, writable disk.faults (n + 1) = writable (disk.set path (some content)).faults n + 1) ∨
    ∃ left, disk.write path content = (disk.set path left, .error .io) ∧ ∀ n, writable disk.faults (n + 1) = 0 := by
  rcases faults : disk.faults with _ | ⟨_ | left, rest⟩
  · exact .inl ⟨by rw [Disk.write,faults], fun n => by simp [Disk.set,faults,writable_nil]⟩
  · exact .inl ⟨by rw [Disk.write,faults], fun n => by simp [Disk.set,faults,writable]⟩
  · exact .inr ⟨left, by rw [Disk.write,faults], fun n => rfl⟩

end

section

variable {host : Host} {config : ToolResultBudgetConfig} {target : HostToolResultStorageTarget} {disk : Disk}
  {messages : List ToolResultMessage} {message : ToolResultMessage} {candidate : Nat × Nat}
  {candidates : List (Nat × Nat)} {total : Nat}

theorem mem_budgetCandidates_iff : candidate ∈ budgetCandidates messages ↔
    ∃ message, messages[candidate.1]? = some message ∧ message.alreadyStored = false ∧ message.content ≠ "" ∧
      message.content.utf8ByteSize = candidate.2 := by
  rw [budgetCandidates,List.mem_mergeSort]
  constructor
  · intro member
    obtain ⟨⟨message, i⟩, kept, rfl⟩ := List.mem_map.mp member
    obtain ⟨listed, unstored⟩ := List.mem_filter.mp kept
    simp only [Bool.and_eq_true,Bool.not_eq_true',decide_eq_true_eq] at unstored
    exact ⟨message, List.mem_zipIdx_iff_getElem?.mp listed, unstored.1, unstored.2, rfl⟩
  · rintro ⟨message, there, unstored, text, size⟩
    refine List.mem_map.mpr ⟨(message, candidate.1), List.mem_filter.mpr ⟨?_, ?_⟩, by rw [size]⟩
    · exact List.mem_zipIdx_iff_getElem?.mpr there
    · simp [unstored,text]

theorem budgetCandidates_pending (messages : List ToolResultMessage) : Pending messages (budgetCandidates messages) := by
  refine ⟨budgetCandidates_nodup messages, ?_⟩
  intro candidate member
  obtain ⟨message, there, _, text, size⟩ := mem_budgetCandidates_iff.mp member
  exact ⟨message, there, size, text⟩

/-! One spill -/

/-- A result that is not empty is written out whatever its size. -/
theorem maybeStore_zero (hex : host.DigestIsHex) (text : message.content ≠ "") :
    maybeStoreToolResultWithTarget host message.content message.toolName message.toolCallId 0 config target disk =
      let written := disk.write (resultPath host target.root message.toolCallId) message.content
      (written.1, written.2.map (fun _ =>
        ⟨noticeOf host config target message, noticeMetadata host config target message⟩)) := by
  have long : ¬ message.content.utf8ByteSize ≤ 0 := by
    rw [Nat.le_zero,String.utf8ByteSize_eq_zero_iff]
    exact text
  unfold maybeStoreToolResultWithTarget
  simp only [if_neg long,stableResultPath,ensureChildPath_resultPath hex,Except.map,writeResultFile]
  rcases disk.write (resultPath host target.root message.toolCallId) message.content with ⟨disk, _ | _⟩
  · rfl
  · simp only [noticeOf,noticeMetadata]

theorem spill_within (within : total ≤ config.turnBudgetBytes) :
    spillCandidates host config target candidates total disk messages = (disk, messages, .ok ()) := by
  cases candidates with
  | nil => rfl
  | cons candidate candidates => rw [spillCandidates,if_pos within]

section

variable {disk' : Disk} (hex : host.DigestIsHex) (more : config.turnBudgetBytes < total)
  (there : messages[candidate.1]? = some message) (text : message.content ≠ "")

include hex more there text

theorem spill_fails {e : StorageError}
    (failed : disk.write (resultPath host target.root message.toolCallId) message.content = (disk', .error e)) :
    spillCandidates host config target (candidate :: candidates) total disk messages = (disk', messages, .error e) := by
  rw [spillCandidates,if_neg (Nat.not_le.mpr more),there]
  simp only [maybeStore_zero hex text,failed,Except.map]

theorem spill_goes_on
    (done : disk.write (resultPath host target.root message.toolCallId) message.content = (disk', .ok ())) :
    spillCandidates host config target (candidate :: candidates) total disk messages =
      spillCandidates host config target candidates
        (total - candidate.2 + (noticeOf host config target message).utf8ByteSize) disk'
        (messages.set candidate.1 (spilled host config target message)) := by
  rw [spillCandidates,if_neg (Nat.not_le.mpr more),there]
  simp only [maybeStore_zero hex text,done,Except.map]
  rfl

end

/-! The running total -/

/-- The total after a spill, as the loop takes it from the total before. -/
theorem totalSize_spilled (there : messages[candidate.1]? = some message)
    (size : message.content.utf8ByteSize = candidate.2) :
    totalSize messages - candidate.2 + (noticeOf host config target message).utf8ByteSize =
      totalSize (messages.set candidate.1 (spilled host config target message)) := by
  have kept := totalSize_set there (spilled host config target message)
  have part := size_le_total there
  simp only [spilled] at kept ⊢
  omega

theorem Pending.next (pending : Pending messages (candidate :: candidates)) (other : ToolResultMessage) :
    Pending (messages.set candidate.1 other) candidates := by
  obtain ⟨first, once⟩ := List.nodup_cons.mp pending.once
  refine ⟨once, ?_⟩
  intro later member
  obtain ⟨message, there, size, text⟩ := pending.each later (List.mem_cons_of_mem _ member)
  have apart : candidate.1 ≠ later.1 := by
    intro same
    rw [same] at first
    exact first (List.mem_map_of_mem member)
  exact ⟨message, by rw [List.getElem?_set_ne apart,there], size, text⟩

/-- The running total is the true one and the candidates to come are as they were measured. -/
def Loop.Counted (loop : Loop) : Prop :=
  loop.total = totalSize loop.messages ∧ Pending loop.messages loop.candidates

theorem Loop.counted_next (hex : host.DigestIsHex) {loop later : Loop} (counted : loop.Counted)
    (next : loop.next host config target = some later) :
    later.Counted ∧ loop.finish host config target = later.finish host config target := by
  obtain ⟨total, pending⟩ := counted
  obtain ⟨candidates, _, disk, messages⟩ := loop
  simp only at total pending
  subst total
  cases candidates with
  | nil => cases next
  | cons candidate candidates =>
    obtain ⟨message, there, size, text⟩ := pending.each candidate List.mem_cons_self
    by_cases within : totalSize messages ≤ config.turnBudgetBytes
    · simp [Loop.next,within] at next
    · simp only [Loop.next,if_neg within,there,maybeStore_zero hex text] at next
      rcases done : disk.write (resultPath host target.root message.toolCallId) message.content with
        ⟨disk', e | ⟨⟩⟩
      · simp [done,Except.map] at next
      · simp only [done,Except.map,Option.some.injEq] at next
        subst next
        refine ⟨⟨totalSize_spilled there size, pending.next _⟩, ?_⟩
        exact spill_goes_on hex (Nat.not_le.mp within) there text done

theorem Iterates.counted (hex : host.DigestIsHex) {loop : Loop}
    (iterates : Iterates host config target messages disk loop) :
    loop.Counted ∧ loop.finish host config target =
      spillCandidates host config target (budgetCandidates messages) (totalSize messages) disk messages := by
  induction iterates with
  | refl => exact ⟨⟨rfl, budgetCandidates_pending messages⟩, rfl⟩
  | tail _ next ih =>
    obtain ⟨counted, resumed⟩ := Loop.counted_next hex ih.1 next
    exact ⟨counted, resumed.symm.trans ih.2⟩

/-! Where the loop stops -/

theorem sizes_cons (candidate : Nat × Nat) (candidates : List (Nat × Nat)) :
    sizes (candidate :: candidates) = candidate.2 + sizes candidates := by
  rw [sizes,List.map_cons,List.sum_cons,sizes]

theorem notices_cons (there : messages[candidate.1]? = some message) :
    notices host config target messages (candidate :: candidates) =
      (noticeOf host config target message).utf8ByteSize + notices host config target messages candidates := by
  rw [notices,List.map_cons,List.sum_cons,noticeSize,there,Option.map_some,Option.getD_some,notices]

theorem notices_set {other : ToolResultMessage} (pending : Pending messages (candidate :: candidates)) (count : Nat) :
    notices host config target (messages.set candidate.1 other) (candidates.take count) =
      notices host config target messages (candidates.take count) := by
  obtain ⟨first, _⟩ := List.nodup_cons.mp pending.once
  refine congrArg List.sum (List.map_congr_left ?_)
  intro later member
  have apart : candidate.1 ≠ later.1 := by
    intro same
    rw [same] at first
    exact first (List.mem_map_of_mem (List.mem_of_mem_take member))
  rw [noticeSize,noticeSize,List.getElem?_set_ne apart]

theorem spillEach_set (there : messages[candidate.1]? = some message)
    (first : candidate.1 ∉ candidates.map Prod.fst) :
    spillEach host config target candidates (messages.set candidate.1 (spilled host config target message)) =
      spillEach host config target (candidate :: candidates) messages := by
  apply List.ext_getElem?
  intro i
  rw [spillEach,spillEach,List.getElem?_mapIdx,List.getElem?_mapIdx,List.map_cons]
  by_cases here : candidate.1 = i
  · subst here
    have inside := (List.getElem?_eq_some_iff.mp there).1
    rw [List.getElem?_set_self inside,there,Option.map_some,Option.map_some,if_neg first,if_pos List.mem_cons_self]
  · rw [List.getElem?_set_ne here]
    simp only [List.mem_cons,Ne.symm here,false_or]

@[simp] theorem spillEach_nil (messages : List ToolResultMessage) :
    spillEach host config target [] messages = messages := by
  apply List.ext_getElem?
  intro i
  simp [spillEach]

theorem Stops.start (within : totalSize messages ≤ config.turnBudgetBytes) :
    Stops host config target candidates messages disk (disk, messages, .ok ()) 0 :=
  ⟨Nat.zero_le _, by simp, rfl, .inl ⟨within, rfl⟩⟩

/-- With no candidate, or no write for the first of them, the messages stay as they are. -/
theorem Stops.stuck {disk' : Disk} {result : Except StorageError Unit}
    (more : config.turnBudgetBytes < totalSize messages) (noRoom : writable disk.faults candidates.length = 0)
    (ended : result = .ok () ↔ 0 = candidates.length) :
    Stops host config target candidates messages disk (disk', messages, result) 0 := by
  refine ⟨Nat.zero_le _, by simp, rfl, .inr ⟨noRoom.symm, ended, ?_⟩⟩
  intro fewer bound
  obtain rfl := Nat.le_zero.mp bound
  exact more

theorem Stops.spill {disk' : Disk} {count : Nat} {outcome : Disk × List ToolResultMessage × Except StorageError Unit}
    (pending : Pending messages (candidate :: candidates)) (there : messages[candidate.1]? = some message)
    (size : message.content.utf8ByteSize = candidate.2) (more : config.turnBudgetBytes < totalSize messages)
    (room : writable disk.faults (candidates.length + 1) = writable disk'.faults candidates.length + 1)
    (stops : Stops host config target candidates (messages.set candidate.1 (spilled host config target message)) disk'
      outcome count) :
    Stops host config target (candidate :: candidates) messages disk outcome (count + 1) := by
  have first := (List.nodup_cons.mp pending.once).1
  have kept := totalSize_set there (spilled host config target message)
  have weight (fewer : Nat) : notices host config target messages ((candidate :: candidates).take (fewer + 1)) =
      (noticeOf host config target message).utf8ByteSize + notices host config target
        (messages.set candidate.1 (spilled host config target message)) (candidates.take fewer) := by
    rw [notices_set pending,List.take_succ_cons,notices_cons there]
  have measured (fewer : Nat) : sizes ((candidate :: candidates).take (fewer + 1)) =
      candidate.2 + sizes (candidates.take fewer) := by
    rw [List.take_succ_cons,sizes_cons]
  have notice : (spilled host config target message).content = noticeOf host config target message := rfl
  rw [notice] at kept
  constructor
  · rw [List.length_cons,room]
    exact Nat.succ_le_succ stops.possible
  · rw [stops.shown,spillEach_set there ?_,List.take_succ_cons]
    intro later
    rw [List.map_take] at later
    exact first (List.mem_of_mem_take later)
  · have balance := stops.balance
    rw [weight,measured]
    omega
  · rcases stops.stops with within | ⟨all, ended, above⟩
    · exact .inl within
    · refine .inr ⟨by rw [List.length_cons,room,all], by rw [ended,List.length_cons,Nat.add_right_cancel_iff], ?_⟩
      intro fewer bound
      cases fewer with
      | zero => exact more
      | succ fewer =>
        have later := above fewer (Nat.le_of_succ_le_succ bound)
        rw [weight,measured]
        omega

/-- The loop spills the largest results until the turn is within its budget, a write fails or none is left. -/
theorem spill_stops (hex : host.DigestIsHex) (pending : Pending messages candidates) : ∃ count,
    Stops host config target candidates messages disk
      (spillCandidates host config target candidates (totalSize messages) disk messages) count := by
  induction candidates generalizing messages disk with
  | nil =>
    by_cases within : totalSize messages ≤ config.turnBudgetBytes
    · exact ⟨0, .start within⟩
    · refine ⟨0, .stuck (Nat.not_le.mp within) ?_ (by simp)⟩
      cases disk.faults <;> rfl
  | cons candidate candidates ih =>
    obtain ⟨message, there, size, text⟩ := pending.each candidate List.mem_cons_self
    by_cases within : totalSize messages ≤ config.turnBudgetBytes
    · rw [spill_within within]
      exact ⟨0, .start within⟩
    · have more := Nat.not_le.mp within
      rcases write_cases disk (resultPath host target.root message.toolCallId) message.content with
        ⟨done, room⟩ | ⟨left, failed, noRoom⟩
      · rw [spill_goes_on hex more there text done,totalSize_spilled there size]
        obtain ⟨count, stops⟩ := ih (pending.next _)
        exact ⟨count + 1, stops.spill pending there size more (room _)⟩
      · rw [spill_fails hex more there text failed]
        exact ⟨0, .stuck more (noRoom _) (by simp)⟩

theorem writable_le (faults : List (Option (Option String))) (n : Nat) : writable faults n ≤ n := by
  induction faults, n using writable.induct with
  | case1 faults => simp [writable]
  | case2 => exact Nat.le_refl _
  | case3 => exact Nat.zero_le _
  | case4 faults n ih => exact Nat.succ_le_succ ih

theorem Stops.untouched {outcome : Disk × List ToolResultMessage × Except StorageError Unit} {count : Nat}
    (stops : Stops host config target candidates messages disk outcome count) (i : Nat) :
    outcome.2.1[i]? = messages[i]? ∨ outcome.2.1[i]? = messages[i]?.map (spilled host config target) := by
  rw [stops.shown,spillEach,List.getElem?_mapIdx]
  by_cases listed : i ∈ (candidates.take count).map Prod.fst
  · simp only [listed,if_true]
    exact .inr True.intro
  · simp only [listed,if_false]
    exact .inl Option.map_id'

/-- With every candidate spilled only a message that counts as stored can be left. -/
theorem all_spilled_iff : (∀ message ∈ spillEach host config target (budgetCandidates messages) messages,
    Shrinkable host config target message → Spilled message) ↔ QuotesShort host config target messages := by
  constructor
  · intro all message member stored
    obtain ⟨i, there⟩ := List.mem_iff_getElem?.mp member
    refine all message (List.mem_of_getElem? (i := i) ?_)
    have unlisted : i ∉ (budgetCandidates messages).map Prod.fst := by
      intro listed
      obtain ⟨candidate, member, rfl⟩ := List.mem_map.mp listed
      obtain ⟨_, same, unstored, _⟩ := mem_budgetCandidates_iff.mp member
      obtain rfl := Option.some.inj (there.symm.trans same)
      rw [stored] at unstored
      cases unstored
    rw [spillEach,List.getElem?_mapIdx,there,Option.map_some,if_neg unlisted]
  · intro short message member shrinkable
    obtain ⟨i, there⟩ := List.mem_iff_getElem?.mp member
    rw [spillEach,List.getElem?_mapIdx,Option.map_eq_some_iff] at there
    obtain ⟨original, here, same⟩ := there
    split at same
    · subst same
      exact .inl rfl
    · rename_i unlisted
      subst same
      apply short original (List.mem_of_getElem? here) ?_ shrinkable
      by_contra open_
      have text : original.content ≠ "" := by
        intro empty
        rw [Shrinkable,empty] at shrinkable
        exact Nat.not_lt_zero _ shrinkable
      exact unlisted (List.mem_map.mpr ⟨(i, original.content.utf8ByteSize),
        mem_budgetCandidates_iff.mpr ⟨original, here, by simpa using open_, text, rfl⟩, rfl⟩)

/-- Enforcing a turn's budget shrinks it as far as it goes exactly when the budget can be met with some of the
largest results spilled, or when all that can be spilled comes to no more as notices, and either a write fails or no
message is passed by that quotes a notice's tag and is longer than its own notice. -/
theorem shrinks_iff (hex : host.DigestIsHex) (messages : List ToolResultMessage) (config : ToolResultBudgetConfig)
    (target : HostToolResultStorageTarget) (disk : Disk) :
    Shrinks host config target messages disk (enforceTurnBudgetWithTarget host messages config target disk) ↔
      Reachable host config target messages disk ∨
        (notices host config target messages (spillable messages disk) ≤ sizes (spillable messages disk) ∧
          ((spillable messages disk).length < (budgetCandidates messages).length ∨
            QuotesShort host config target messages)) := by
  have enforced : enforceTurnBudgetWithTarget host messages config target disk =
      spillCandidates host config target (budgetCandidates messages) (totalSize messages) disk messages := by
    unfold enforceTurnBudgetWithTarget
    split
    · rename_i within
      exact (spill_within within).symm
    · rfl
  obtain ⟨count, stops⟩ : ∃ count, Stops host config target (budgetCandidates messages) messages disk _ count :=
    spill_stops hex (budgetCandidates_pending messages)
  rw [enforced]
  have counted (loop : Loop) (iterates : Iterates host config target messages disk loop) :
      loop.finish host config target =
          spillCandidates host config target (budgetCandidates messages) (totalSize messages) disk messages ∧
        loop.total = totalSize loop.messages ∧ ∀ candidate ∈ loop.candidates.head?, candidate.2 ≤ loop.total := by
    obtain ⟨⟨total, pending⟩, finished⟩ := iterates.counted hex
    refine ⟨finished, total, ?_⟩
    intro candidate first
    obtain ⟨message, there, size, _⟩ := pending.each candidate (List.mem_of_mem_head? first)
    rw [total,← size]
    exact size_le_total there
  by_cases reachable : Reachable host config target messages disk
  · refine iff_of_true ?_ (.inl reachable)
    rcases stops.stops with ⟨within, _⟩ | ⟨rfl, _, above⟩
    · refine ⟨?_, counted, stops.untouched, fun _ => .inl within⟩
      by_cases already : totalSize messages ≤ config.turnBudgetBytes
      · rw [spill_within already]
      · exact within.trans (Nat.le_of_not_le already)
    · obtain ⟨fewer, possible, fits⟩ := reachable
      exact absurd fits (Nat.not_le.mpr (above fewer possible))
  · rcases stops.stops with ⟨within, _⟩ | ⟨rfl, ended, above⟩
    · have balance := stops.balance
      exact absurd ⟨count, stops.possible, by omega⟩ reachable
    · have beyond : _ + sizes (spillable messages disk) <
          _ + notices host config target messages (spillable messages disk) := above _ (Nat.le_refl _)
      have balance : _ + sizes (spillable messages disk) =
          _ + notices host config target messages (spillable messages disk) := stops.balance
      have long : ¬ totalSize (spillCandidates host config target (budgetCandidates messages) (totalSize messages) disk
          messages).2.1 ≤ config.turnBudgetBytes := by omega
      have room : (spillable messages disk).length = writable disk.faults (budgetCandidates messages).length := by
        rw [spillable,List.length_take,Nat.min_eq_left (writable_le _ _)]
      have shown := stops.shown
      rw [room,or_iff_right reachable]
      constructor
      · intro shrinks
        have total := shrinks.total
        refine ⟨by omega, ?_⟩
        rcases Nat.lt_or_eq_of_le (writable_le disk.faults (budgetCandidates messages).length) with fewer | all
        · exact .inl fewer
        · refine .inr (all_spilled_iff.mp ?_)
          have left := (shrinks.enough (ended.mpr all)).resolve_left long
          rwa [shown,all,List.take_length] at left
      · rintro ⟨smaller, cause⟩
        refine ⟨by omega, counted, stops.untouched, fun done => .inr ?_⟩
        have all := ended.mp done
        rw [shown,all,List.take_length]
        exact all_spilled_iff.mpr (cause.resolve_left (Nat.not_lt.mpr (Nat.le_of_eq all.symm)))

end

/-! One long result, and one short one -/

/-- A turn of one result, and a store that works. -/
def turnOf (content : String) : List ToolResultMessage := [.new "read" "call_1" content]

def turnBudget (bytes : Nat) : ToolResultBudgetConfig := ⟨100000, bytes, 0, "spill"⟩

section

variable {host : Host} {config : ToolResultBudgetConfig} {target : HostToolResultStorageTarget}
  {message : ToolResultMessage}

theorem budgetCandidates_turnOf {content : String} (unstored : containsText content persistedOutputTag = false)
    (text : content ≠ "") : budgetCandidates (turnOf content) = [(0, content.utf8ByteSize)] := by
  simp [budgetCandidates,turnOf,ToolResultMessage.new,ToolResultMessage.alreadyStored,unstored,text]

/-- A result of so many letters. -/
def letters (n : Nat) : String := String.ofList (List.replicate n 'a')

theorem letters_size (n : Nat) : (letters n).utf8ByteSize = n := by
  have letter : Char.utf8Size 'a' = 1 := by decide
  rw [letters,utf8ByteSize_ofList,List.map_replicate,List.sum_replicate_nat,letter,Nat.mul_one]

theorem letters_text (n : Nat) : letters (n + 1) ≠ "" := by
  intro empty
  have size := letters_size (n + 1)
  rw [empty] at size
  cases size

theorem letters_plain (n : Nat) : containsText (letters n) persistedOutputTag = false := by
  refine decide_eq_false (fun tagged => ?_)
  have opening : '<' ∈ persistedOutputTag.toList := by decide
  have inside := tagged.subset opening
  rw [letters,String.toList_ofList] at inside
  exact absurd (List.eq_of_mem_replicate inside) (by decide)

/-- Without a preview only the size of the result and its path matter. -/
theorem noticeOf_unseen (unseen : config.previewBytes = 0) (text : message.content ≠ "") :
    noticeOf host config target message =
      buildPersistedMessage "" true message.content.utf8ByteSize (resultPath host target.root message.toolCallId) := by
  have long : ¬ message.content.utf8ByteSize ≤ 0 := by
    rw [Nat.le_zero,String.utf8ByteSize_eq_zero_iff]
    exact text
  have taken : takeBytes 0 message.content.toList = [] := by
    cases message.content.toList with
    | nil => rfl
    | cons c rest => rw [takeBytes,if_neg (Nat.not_le.mpr c.utf8Size_pos)]
  rw [noticeOf,unseen,generatePreview,if_neg long,taken]
  rfl

/-- One result whose notice fits the budget. -/
theorem one_reachable (candidates : budgetCandidates [message] = [(0, message.content.utf8ByteSize)])
    (fits : (noticeOf host config target message).utf8ByteSize ≤ config.turnBudgetBytes) :
    Reachable host config target [message] emptyDisk := by
  have there : [message][((0, message.content.utf8ByteSize) : Nat × Nat).1]? = some message := rfl
  have nothing : notices host config target [message] [] = 0 := rfl
  have notice : notices host config target [message] [(0, message.content.utf8ByteSize)] =
      (noticeOf host config target message).utf8ByteSize := by
    rw [notices_cons there,nothing,Nat.add_zero]
  have size : sizes [(0, message.content.utf8ByteSize)] = message.content.utf8ByteSize := sizes_cons _ _
  have total : totalSize [message] = message.content.utf8ByteSize := Nat.zero_add _
  rw [Reachable,candidates]
  refine ⟨1, Nat.le_refl 1, ?_⟩
  rw [List.take_succ_cons,List.take_zero,total,notice,size]
  omega

theorem long_notice_fits {content : String} (text : content ≠ "") (size : content.utf8ByteSize = 600) :
    (noticeOf sha256Host (turnBudget 400) (.new "spill") (.new "read" "call_1" content)).utf8ByteSize ≤ 400 := by
  have short : (buildPersistedMessage "" true 600 (resultPath sha256Host "spill" "call_1")).utf8ByteSize ≤ 400 := by
    decide +kernel
  rw [← size] at short
  rw [noticeOf_unseen rfl text]
  exact short

end

/-- A long result is spilled. -/
theorem long_result_shrinks : Shrinks sha256Host (turnBudget 400) (.new "spill") (turnOf (letters 600)) emptyDisk
    (enforceTurnBudgetWithTarget sha256Host (turnOf (letters 600)) (turnBudget 400) (.new "spill") emptyDisk) :=
  (shrinks_iff sha256Host_digestIsHex _ _ _ _).mpr (.inl (one_reachable
    (budgetCandidates_turnOf (letters_plain 600) (letters_text 599))
    (long_notice_fits (letters_text 599) (letters_size 600))))

/-- A short one is replaced by a notice that is longer. -/
theorem short_result_grows : ¬ Shrinks sha256Host (turnBudget 1) (.new "spill") (turnOf "ab") emptyDisk
    (enforceTurnBudgetWithTarget sha256Host (turnOf "ab") (turnBudget 1) (.new "spill") emptyDisk) := by
  have candidates : budgetCandidates (turnOf "ab") = [(0, 2)] :=
    budgetCandidates_turnOf (by decide) (by decide)
  intro shrinks
  have total := shrinks.total
  rw [enforceTurnBudgetWithTarget,if_neg (by decide),candidates] at total
  revert total
  decide +kernel

end Zaion.Agent
