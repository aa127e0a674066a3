import Zaion.Agent.Spill
import Zaion.Sample

/-! Runs of storing calls into one directory. An output is lost exactly when two call ids
share a file name. -/
namespace Zaion.Agent

open Lib

attribute [local irreducible] resultPath

section

variable {host : Host} {root : String} {disk disk' : Disk} {results : List ToolResult}
  {messages : List ToolResultMessage}

/-- Position by position the messages hold the results. -/
structure Aligned (host : Host) (root : String) (disk : Disk) (results : List ToolResult)
    (messages : List ToolResultMessage) : Prop where
  length : messages.length = results.length
  held : ∀ (i : Nat) result message, results[i]? = some result → messages[i]? = some message →
    Held host root disk result message

/-- No two of the results share a file. -/
def Separate (host : Host) (root : String) (results : List ToolResult) : Prop :=
  (results.map (fun result => resultPath host root result.toolCallId)).Nodup

theorem Separate.eq_of_path (separate : Separate host root results) {i j : Nat} {a b : ToolResult}
    (first : results[i]? = some a) (second : results[j]? = some b)
    (same : resultPath host root a.toolCallId = resultPath host root b.toolCallId) : i = j := by
  obtain ⟨inside, _⟩ := List.getElem?_eq_some_iff.mp first
  refine (List.getElem?_inj (by simpa using inside) separate).mp ?_
  rw [List.getElem?_map,List.getElem?_map,first,second,Option.map_some,Option.map_some,same]

/-- A call about one of the results leaves the files of the others alone. -/
theorem Aligned.other (aligned : Aligned host root disk results messages) (separate : Separate host root results)
    {i : Nat} {result : ToolResult} (here : results[i]? = some result)
    (touches : Touches host root [result.toolCallId] disk disk') {j : Nat} {other : ToolResult}
    {message : ToolResultMessage} (apart : j ≠ i) (there : results[j]? = some other)
    (shown : messages[j]? = some message) : Held host root disk' other message := by
  apply (aligned.held j other message there shown).frame
  apply touches.files
  intro id member same
  obtain rfl := List.mem_singleton.mp member
  exact apart (separate.eq_of_path there here same)

theorem Aligned.fail (aligned : Aligned host root disk results messages) (separate : Separate host root results)
    {i : Nat} {result : ToolResult} {message : ToolResultMessage} (here : results[i]? = some result)
    (shown : messages[i]? = some message) (verbatim : message.content = result.output)
    (touches : Touches host root [result.toolCallId] disk disk') : Aligned host root disk' results messages := by
  refine ⟨aligned.length, ?_⟩
  intro j other message' there shown'
  by_cases same : j = i
  · subst same
    obtain rfl := Option.some.inj (here.symm.trans there)
    obtain rfl := Option.some.inj (shown.symm.trans shown')
    exact .of_verbatim (aligned.held j _ _ here shown).id verbatim
  · exact aligned.other separate here touches same there shown'

theorem Aligned.replace (aligned : Aligned host root disk results messages) (separate : Separate host root results)
    {i : Nat} {result : ToolResult} {message : ToolResultMessage} (here : results[i]? = some result)
    (touches : Touches host root [result.toolCallId] disk disk')
    (held : Held host root disk' result message) : Aligned host root disk' results (messages.set i message) := by
  refine ⟨by rw [List.length_set,aligned.length], ?_⟩
  intro j other message' there shown
  by_cases same : j = i
  · subst same
    obtain rfl := Option.some.inj (here.symm.trans there)
    obtain ⟨inside, read⟩ := List.getElem?_eq_some_iff.mp shown
    rw [List.getElem_set_self] at read
    exact read ▸ held
  · rw [List.getElem?_set_ne (Ne.symm same)] at shown
    exact aligned.other separate here touches same there shown

/-- The spilling loop keeps every result held and writes only their files. -/
theorem spillCandidates_spec (hex : host.DigestIsHex) {config : ToolResultBudgetConfig}
    {target : HostToolResultStorageTarget} (dir : target.root = root) (separate : Separate host root results)
    {candidates : List (Nat × Nat)} {total : Nat} (aligned : Aligned host root disk results messages)
    (once : (candidates.map Prod.fst).Nodup)
    (unstored : ∀ entry ∈ candidates, ∀ message, messages[entry.1]? = some message → message.alreadyStored = false) :
    Aligned host root (spillCandidates host config target candidates total disk messages).1 results
        (spillCandidates host config target candidates total disk messages).2.1 ∧
      Touches host root (results.map ToolResult.toolCallId) disk
        (spillCandidates host config target candidates total disk messages).1 := by
  induction candidates generalizing total disk messages with
  | nil => exact ⟨aligned, .refl⟩
  | cons entry candidates ih =>
    obtain ⟨i, originalSize⟩ := entry
    simp only [spillCandidates]
    split
    · exact ⟨aligned, .refl⟩
    · split
      · exact ⟨aligned, .refl⟩
      · rename_i message shown
        obtain ⟨inside, _⟩ := List.getElem?_eq_some_iff.mp shown
        obtain ⟨result, here⟩ : ∃ result, results[i]? = some result :=
          ⟨_, List.getElem?_eq_getElem (aligned.length ▸ inside)⟩
        have holds := aligned.held i result message here shown
        have verbatim := holds.verbatim (unstored _ List.mem_cons_self message shown)
        have stores : Stores (resultPath host root result.toolCallId) result.output disk
            (maybeStoreToolResultWithTarget host message.content message.toolName message.toolCallId 0 config target
              disk) := maybeStore_spec hex (by rw [dir,holds.id]) verbatim
        have touches := Touches.of_stores stores (List.mem_singleton_self _)
        have listed : ∀ id ∈ [result.toolCallId], id ∈ results.map ToolResult.toolCallId := by
          intro id member
          rw [List.mem_singleton.mp member]
          exact List.mem_map_of_mem (List.mem_of_getElem? here)
        split
        · rename_i disk' e failed
          rw [failed] at touches
          exact ⟨aligned.fail separate here shown verbatim touches, touches.mono listed⟩
        · rename_i disk' stored done
          rw [done] at stores touches
          have holds' : Held host root disk' result { message with
              content := stored.injectableContent
              metadata := some stored.metadata } := Held.stored stores rfl holds.id rfl
          obtain ⟨first, later⟩ := List.nodup_cons.mp once
          obtain ⟨aligned', rest⟩ := ih
            (aligned.replace separate here touches holds') later (by
              intro entry member message' shown'
              have apart : i ≠ entry.1 := by
                rintro rfl
                exact first (List.mem_map.mpr ⟨entry, member, rfl⟩)
              rw [List.getElem?_set_ne apart] at shown'
              exact unstored entry (List.mem_cons_of_mem _ member) message' shown')
          exact ⟨aligned', (touches.mono listed).trans rest⟩

theorem mem_budgetCandidates {entry : Nat × Nat} (member : entry ∈ budgetCandidates messages) :
    ∃ message, messages[entry.1]? = some message ∧ message.alreadyStored = false := by
  rw [budgetCandidates,List.mem_mergeSort] at member
  obtain ⟨⟨message, i⟩, kept, rfl⟩ := List.mem_map.mp member
  obtain ⟨listed, open_⟩ := List.mem_filter.mp kept
  simp only [Bool.and_eq_true,Bool.not_eq_true'] at open_
  exact ⟨message, List.mem_zipIdx_iff_getElem?.mp listed, open_.1⟩

theorem budgetCandidates_nodup (messages : List ToolResultMessage) :
    ((budgetCandidates messages).map Prod.fst).Nodup := by
  have sorted := List.mergeSort_perm ((messages.zipIdx.filter (fun entry =>
    !entry.1.alreadyStored && decide (entry.1.content ≠ ""))).map
      (fun entry => (entry.2, entry.1.content.utf8ByteSize))) (fun a b => decide (b.2 ≤ a.2))
  refine (sorted.map Prod.fst).nodup_iff.mpr ?_
  rw [List.map_map]
  refine List.Nodup.sublist (List.filter_sublist.map Prod.snd) ?_
  rw [List.zipIdx_map_snd]
  exact List.nodup_range'

theorem enforceTurnBudget_spec (hex : host.DigestIsHex) {config : ToolResultBudgetConfig}
    (dir : config.storageDir = root) (separate : Separate host root results)
    (aligned : Aligned host root disk results messages) :
    Aligned host root (enforceTurnBudget host messages config disk).1 results
        (enforceTurnBudget host messages config disk).2.1 ∧
      Touches host root (results.map ToolResult.toolCallId) disk (enforceTurnBudget host messages config disk).1 := by
  unfold enforceTurnBudget enforceTurnBudgetWithTarget
  split
  · exact ⟨aligned, .refl⟩
  · apply spillCandidates_spec hex dir separate aligned (budgetCandidates_nodup messages)
    intro entry member message shown
    obtain ⟨message', shown', unstored⟩ := mem_budgetCandidates member
    obtain rfl := Option.some.inj (shown.symm.trans shown')
    exact unstored

/-- The storing loop of a turn: the files of its results only, and held messages when it
comes to its end. -/
theorem storeToolResults_spec (hex : host.DigestIsHex) {config : ToolResultBudgetConfig}
    (dir : config.storageDir = root) (separate : Separate host root results) (disk : Disk) :
    Touches host root (results.map ToolResult.toolCallId) disk (storeToolResults host config results disk).1 ∧
      ∀ messages, (storeToolResults host config results disk).2 = .ok messages →
        Aligned host root (storeToolResults host config results disk).1 results messages := by
  induction results generalizing disk with
  | nil =>
    refine ⟨.refl, ?_⟩
    rintro messages ⟨⟩
    exact ⟨rfl, by simp⟩
  | cons result results ih =>
    obtain ⟨apart, separate⟩ := List.nodup_cons.mp separate
    have stores : Stores (resultPath host root result.toolCallId) result.output disk
        (maybeStoreToolResult host result.output result.toolName result.toolCallId config disk) :=
      maybeStore_spec hex (by rw [← dir]; rfl) rfl
    have touches : Touches host root ((result :: results).map ToolResult.toolCallId) disk _ :=
      .of_stores stores List.mem_cons_self
    simp only [storeToolResults]
    split
    · rename_i disk' e failed
      rw [failed] at touches
      exact ⟨touches, by simp⟩
    · rename_i disk' stored done
      rw [done] at touches stores
      obtain ⟨rest, aligned⟩ := ih separate disk'
      have further := touches.trans (rest.mono fun _ member => List.mem_cons_of_mem _ member)
      split
      · rename_i disk'' e failed
        rw [failed] at further
        exact ⟨further, by simp⟩
      · rename_i disk'' messages finished
        rw [finished] at further rest aligned
        refine ⟨further, ?_⟩
        rintro _ ⟨⟩
        have tail := aligned messages rfl
        refine ⟨by simp [tail.length], ?_⟩
        intro i other message there shown
        cases i with
        | zero =>
          cases there
          cases shown
          refine (Held.stored stores rfl rfl rfl).frame (rest.files _ ?_)
          rintro id member same
          obtain ⟨later, listed, rfl⟩ := List.mem_map.mp member
          exact apart (List.mem_map.mpr ⟨later, listed, same.symm⟩)
        | succ i => exact tail.held i other message there shown

/-- A result the turn hands on, as the message that enters the conversation. -/
def ToolResult.asMessage (result : ToolResult) : ToolResultMessage :=
  .new result.toolName result.toolCallId result.output

theorem budgetToolResults_spec (hex : host.DigestIsHex) {config : ToolResultBudgetConfig}
    (dir : config.storageDir = root) (separate : Separate host root results) (disk : Disk) :
    Touches host root (results.map ToolResult.toolCallId) disk (budgetToolResults host results config disk).1 ∧
      ∀ budgeted, (budgetToolResults host results config disk).2 = .ok budgeted →
        Aligned host root (budgetToolResults host results config disk).1 results
          (budgeted.map ToolResult.asMessage) := by
  obtain ⟨touches, stored⟩ := storeToolResults_spec hex dir separate disk
  unfold budgetToolResults
  split
  · rename_i disk' e failed
    rw [failed] at touches
    exact ⟨touches, by simp⟩
  · rename_i disk' messages done
    rw [done] at touches stored
    obtain ⟨aligned, further⟩ := enforceTurnBudget_spec hex dir separate (stored messages rfl)
    split
    · rename_i disk'' messages' e failed
      rw [failed] at further
      exact ⟨touches.trans further, by simp⟩
    · rename_i disk'' messages' done'
      rw [done'] at aligned further
      refine ⟨touches.trans further, ?_⟩
      rintro _ ⟨⟩
      refine ⟨by simp [aligned.length], ?_⟩
      intro i result message here shown
      rw [List.map_map,List.getElem?_map,Option.map_eq_some_iff] at shown
      obtain ⟨⟨held, success⟩, paired, rfl⟩ := shown
      obtain ⟨there, _⟩ := List.getElem?_zip_eq_some.mp paired
      have holds := aligned.held i result held here there
      exact ⟨holds.id, holds.content⟩

end

/-! The system: a directory, the results handed over so far and the messages that stand for
them. Messages may be put under a turn budget again, in any selection and order. -/

structure Spills where
  disk : Disk
  given : List ToolResult
  shown : List (ToolResult × ToolResultMessage)

/-- What a call that stores one result shows of it. -/
def shownStored (result : ToolResult) : Except StorageError StoredToolResult → List (ToolResult × ToolResultMessage)
  | .ok stored => [(result, ⟨result.toolName, result.toolCallId, stored.injectableContent, some stored.metadata⟩)]
  | .error _ => []

def shownBudgeted (results : List ToolResult) :
    Except StorageError (List ToolResult) → List (ToolResult × ToolResultMessage)
  | .ok budgeted => results.zip (budgeted.map ToolResult.asMessage)
  | .error _ => []

inductive SpillStep (host : Host) (root : String) : Spills → Spills → Prop
  | store (s : Spills) (result : ToolResult) (config : ToolResultBudgetConfig) (dir : config.storageDir = root) :
      SpillStep host root s
        ⟨(maybeStoreToolResult host result.output result.toolName result.toolCallId config s.disk).1,
          s.given ++ [result], s.shown ++ shownStored result
            (maybeStoreToolResult host result.output result.toolName result.toolCallId config s.disk).2⟩
  | post (s : Spills) (result : ToolResult) :
      SpillStep host root s ⟨s.disk, s.given ++ [result], s.shown ++ [(result, result.asMessage)]⟩
  | enforce (s : Spills) (picked rest : List (ToolResult × ToolResultMessage)) (split : s.shown.Perm (picked ++ rest))
      (config : ToolResultBudgetConfig) (dir : config.storageDir = root) :
      SpillStep host root s ⟨(enforceTurnBudget host (picked.map Prod.snd) config s.disk).1, s.given,
        (picked.map Prod.fst).zip (enforceTurnBudget host (picked.map Prod.snd) config s.disk).2.1 ++ rest⟩
  | turn (s : Spills) (results : List ToolResult) (config : ToolResultBudgetConfig) (dir : config.storageDir = root) :
      SpillStep host root s ⟨(budgetToolResults host results config s.disk).1, s.given ++ results,
        s.shown ++ shownBudgeted results (budgetToolResults host results config s.disk).2⟩

def SpillRun (host : Host) (root : String) (disk : Disk) (s : Spills) : Prop :=
  Relation.ReflTransGen (SpillStep host root) ⟨disk, [], []⟩ s

/-- Nothing is lost, and nothing outside the root was written. -/
structure Lossless (root : String) (start : Disk) (s : Spills) : Prop where
  recoverable : ∀ entry ∈ s.shown, Recoverable s.disk entry.1 entry.2
  inside : ∀ path, s.disk.files path ≠ start.files path → ensureChildPath start.currentDir root path = .ok ()

/-- The results handed over have different call ids, and these have different file names. -/
structure Unconfused (host : Host) (s : Spills) : Prop where
  distinct : (s.given.map ToolResult.toolCallId).Nodup
  stems : ∀ a ∈ s.given, ∀ b ∈ s.given,
    safeFileStem host a.toolCallId = safeFileStem host b.toolCallId → a.toolCallId = b.toolCallId

structure Kept (host : Host) (root : String) (start : Disk) (s : Spills) : Prop where
  held : ∀ entry ∈ s.shown, Held host root s.disk entry.1 entry.2
  given : ∀ entry ∈ s.shown, entry.1 ∈ s.given
  separate : Separate host root (s.shown.map Prod.fst)
  touches : Touches host root (s.given.map ToolResult.toolCallId) start s.disk

section

variable {host : Host} {root : String} {start disk : Disk} {s : Spills} {fresh : List ToolResult}
  {new picked rest : List (ToolResult × ToolResultMessage)}

theorem Unconfused.separate (hex : host.DigestIsHex) (clear : Unconfused host s) (root : String) :
    Separate host root s.given := by
  have once : s.given.Nodup := clear.distinct.of_map
  refine once.map_on ?_
  intro a first b second same
  exact List.inj_on_of_nodup_map clear.distinct first second (clear.stems a first b second (resultPath_stem hex same))

/-- Paths of one part are none of the other's. -/
theorem Separate.path_ne {first second : List ToolResult} (separate : Separate host root (first ++ second))
    {a b : ToolResult} (left : a ∈ first) (right : b ∈ second) :
    resultPath host root a.toolCallId ≠ resultPath host root b.toolCallId := by
  rw [Separate,List.map_append,List.nodup_append] at separate
  exact separate.2.2 _ (List.mem_map_of_mem left) _ (List.mem_map_of_mem right)

theorem Separate.untouched {first second : List ToolResult} (separate : Separate host root (first ++ second))
    {disk disk' : Disk} (touches : Touches host root (second.map ToolResult.toolCallId) disk disk')
    {result : ToolResult} {message : ToolResultMessage} (member : result ∈ first)
    (held : Held host root disk result message) : Held host root disk' result message := by
  apply held.frame
  apply touches.files
  intro id touched
  obtain ⟨other, listed, rfl⟩ := List.mem_map.mp touched
  exact separate.path_ne member listed

theorem Kept.extend (kept : Kept host root start s) (separate : Separate host root (s.given ++ fresh))
    (touches : Touches host root (fresh.map ToolResult.toolCallId) s.disk disk)
    (part : (new.map Prod.fst).Sublist fresh) (held : ∀ entry ∈ new, Held host root disk entry.1 entry.2) :
    Kept host root start ⟨disk, s.given ++ fresh, s.shown ++ new⟩ where
  held entry member := by
    rcases List.mem_append.mp member with old | added
    · exact separate.untouched touches (kept.given entry old) (kept.held entry old)
    · exact held entry added
  given entry member := by
    rcases List.mem_append.mp member with old | added
    · exact List.mem_append_left _ (kept.given entry old)
    · exact List.mem_append_right _ (part.subset (List.mem_map_of_mem added))
  separate := by
    have both := separate
    rw [Separate,List.map_append,List.nodup_append] at both
    rw [Separate,List.map_append,List.map_append,List.nodup_append]
    refine ⟨kept.separate, both.2.1.sublist (part.map _), ?_⟩
    intro path old path' added same
    obtain ⟨a, shown, rfl⟩ := List.mem_map.mp old
    obtain ⟨entry, listed, rfl⟩ := List.mem_map.mp shown
    obtain ⟨b, present, rfl⟩ := List.mem_map.mp added
    exact separate.path_ne (kept.given entry listed) (part.subset present) same
  touches := by
    refine (kept.touches.mono ?_).trans (touches.mono ?_) <;>
      (intro id member; rw [List.map_append]; simp [member])

theorem Kept.enforce (hex : host.DigestIsHex) (kept : Kept host root start s)
    (split : s.shown.Perm (picked ++ rest)) {config : ToolResultBudgetConfig} (dir : config.storageDir = root) :
    Kept host root start ⟨(enforceTurnBudget host (picked.map Prod.snd) config s.disk).1, s.given,
      (picked.map Prod.fst).zip (enforceTurnBudget host (picked.map Prod.snd) config s.disk).2.1 ++ rest⟩ := by
  have separate : Separate host root (picked.map Prod.fst ++ rest.map Prod.fst) := by
    rw [← List.map_append]
    exact ((split.map Prod.fst).map _).nodup_iff.mp kept.separate
  have ours : Separate host root (picked.map Prod.fst) := by
    rw [Separate,List.map_append] at separate
    exact separate.of_append_left
  have others : Separate host root (rest.map Prod.fst ++ picked.map Prod.fst) :=
    (List.perm_append_comm.map _).nodup_iff.mp separate
  have aligned : Aligned host root s.disk (picked.map Prod.fst) (picked.map Prod.snd) := by
    refine ⟨by simp, ?_⟩
    intro i result message here shown
    simp only [List.getElem?_map,Option.map_eq_some_iff] at here shown
    obtain ⟨entry, there, rfl⟩ := here
    obtain ⟨_, same, rfl⟩ := shown
    obtain rfl := Option.some.inj (there.symm.trans same)
    exact kept.held entry (split.mem_iff.mpr (List.mem_append_left _ (List.mem_of_getElem? there)))
  obtain ⟨aligned', touches⟩ := enforceTurnBudget_spec hex dir ours aligned
  have unzipped : ((picked.map Prod.fst).zip (enforceTurnBudget host (picked.map Prod.snd) config s.disk).2.1).map
      Prod.fst = picked.map Prod.fst := List.map_fst_zip (le_of_eq aligned'.length.symm)
  constructor
  · intro entry member
    rcases List.mem_append.mp member with ours | other
    · obtain ⟨i, there⟩ := List.mem_iff_getElem?.mp ours
      obtain ⟨here, shown⟩ := List.getElem?_zip_eq_some.mp there
      exact aligned'.held i _ _ here shown
    · exact others.untouched touches (List.mem_map_of_mem other)
        (kept.held entry (split.mem_iff.mpr (List.mem_append_right _ other)))
  · intro entry member
    have back : entry.1 ∈ (picked ++ rest).map Prod.fst := by
      rw [List.map_append,← unzipped,← List.map_append]
      exact List.mem_map_of_mem member
    obtain ⟨original, listed, same⟩ := List.mem_map.mp back
    exact same ▸ kept.given original (split.mem_iff.mpr listed)
  · rw [List.map_append,unzipped]
    exact separate
  · refine kept.touches.trans (touches.mono ?_)
    intro id member
    obtain ⟨result, listed, rfl⟩ := List.mem_map.mp member
    obtain ⟨entry, present, rfl⟩ := List.mem_map.mp listed
    exact List.mem_map_of_mem (kept.given entry (split.mem_iff.mpr (List.mem_append_left _ present)))

theorem SpillStep.given {t : Spills} (step : SpillStep host root s t) : ∃ more, t.given = s.given ++ more := by
  cases step with
  | store result config dir => exact ⟨[result], rfl⟩
  | post result => exact ⟨[result], rfl⟩
  | enforce picked rest split config dir => exact ⟨[], (List.append_nil _).symm⟩
  | turn results config dir => exact ⟨results, rfl⟩

theorem Unconfused.before {t : Spills} (step : SpillStep host root s t) (clear : Unconfused host t) :
    Unconfused host s := by
  obtain ⟨more, grown⟩ := step.given
  have old : ∀ result ∈ s.given, result ∈ t.given := by
    intro result member
    rw [grown]
    exact List.mem_append_left _ member
  have distinct := clear.distinct
  rw [grown,List.map_append] at distinct
  exact ⟨distinct.of_append_left, fun a first b second => clear.stems a (old a first) b (old b second)⟩

theorem Kept.step (hex : host.DigestIsHex) {t : Spills} (kept : Kept host root start s) (step : SpillStep host root s t)
    (clear : Unconfused host t) : Kept host root start t := by
  have separate := clear.separate hex root
  cases step with
  | store result config dir =>
    have stores : Stores (resultPath host root result.toolCallId) result.output s.disk
        (maybeStoreToolResult host result.output result.toolName result.toolCallId config s.disk) :=
      maybeStore_spec hex (by rw [← dir]; rfl) rfl
    apply kept.extend separate (Touches.of_stores stores (by simp))
    · cases (maybeStoreToolResult host result.output result.toolName result.toolCallId config s.disk).2 <;>
        simp [shownStored]
    · intro entry member
      cases done : (maybeStoreToolResult host result.output result.toolName result.toolCallId config s.disk).2 with
      | error e => simp [done,shownStored] at member
      | ok stored =>
        simp only [done,shownStored,List.mem_singleton] at member
        subst member
        exact Held.stored stores done rfl rfl
  | post result =>
    apply kept.extend separate .refl
    · simp
    · intro entry member
      obtain rfl := List.mem_singleton.mp member
      exact .of_verbatim rfl rfl
  | enforce picked rest split config dir => exact kept.enforce hex split dir
  | turn results config dir =>
    have ours : Separate host root results := by
      rw [Separate,List.map_append] at separate
      exact separate.of_append_right
    obtain ⟨touches, aligned⟩ := budgetToolResults_spec hex dir ours s.disk
    apply kept.extend separate touches
    · cases done : (budgetToolResults host results config s.disk).2 with
      | error e => simp [shownBudgeted]
      | ok budgeted =>
        rw [shownBudgeted,List.map_fst_zip (le_of_eq (aligned budgeted done).length.symm)]
    · intro entry member
      cases done : (budgetToolResults host results config s.disk).2 with
      | error e => simp [done,shownBudgeted] at member
      | ok budgeted =>
        rw [done,shownBudgeted] at member
        obtain ⟨i, there⟩ := List.mem_iff_getElem?.mp member
        obtain ⟨here, shown⟩ := List.getElem?_zip_eq_some.mp there
        exact (aligned budgeted done).held i _ _ here shown

theorem SpillRun.kept (hex : host.DigestIsHex) (run : SpillRun host root start s) (clear : Unconfused host s) :
    Kept host root start s := by
  induction run with
  | refl => exact ⟨by simp, by simp, by simp [Separate], .refl⟩
  | tail run step ih => exact (ih (clear.before step)).step hex step clear

theorem Kept.lossless (hex : host.DigestIsHex) (kept : Kept host root start s) : Lossless root start s where
  recoverable entry member := (kept.held entry member).recoverable
  inside path changed := by
    by_contra outside
    apply changed
    apply kept.touches.files
    intro id _ same
    rw [same] at outside
    exact outside (ensureChildPath_resultPath hex _ id)

end

/-! Two ids with one file name. -/

def emptyDisk : Disk := ⟨fun _ => none, none, []⟩

def spillAll (root : String) : ToolResultBudgetConfig := ⟨0, 0, 0, root⟩

theorem maybeStore_spills {host : Host} (hex : host.DigestIsHex) (root content toolName toolCallId : String)
    {disk : Disk} (working : disk.faults = []) (nonempty : 0 < content.utf8ByteSize) : ∃ preview more size metadata,
    maybeStoreToolResult host content toolName toolCallId (spillAll root) disk =
      (disk.set (resultPath host root toolCallId) (some content),
        .ok ⟨buildPersistedMessage preview more size (resultPath host root toolCallId), metadata⟩) := by
  unfold maybeStoreToolResult maybeStoreToolResultWithThreshold maybeStoreToolResultWithTarget
  simp only [spillAll,HostToolResultStorageTarget.new,stableResultPath,ensureChildPath_resultPath hex,Except.map,
    writeResultFile,Disk.write,working]
  rw [if_neg (by omega)]
  exact ⟨_, _, _, _, rfl⟩

theorem Names.head {content path : String} (names : Names content path) : content.toList.head? = some '<' := by
  obtain ⟨preview, more, size, rfl⟩ := names
  have tag : persistedOutputTag.toList = '<' :: "persisted-output>".toList := by decide
  simp only [buildPersistedMessage,String.toList_append,List.append_assoc,tag]
  rfl

/-- The second of two results with one file name overwrites the first. -/
theorem collision_loses {host : Host} (hex : host.DigestIsHex) (root : String) {a b : String}
    (same : safeFileStem host a = safeFileStem host b) :
    ∃ s, SpillRun host root emptyDisk s ∧ s.given = [⟨a, "read", "x", true⟩, ⟨b, "read", "y", true⟩] ∧
      ∃ entry ∈ s.shown, entry.1 = ⟨a, "read", "x", true⟩ ∧ ¬ Recoverable s.disk entry.1 entry.2 := by
  have path : resultPath host root a = resultPath host root b := by
    unfold resultPath
    rw [same]
  have empty : emptyDisk.faults = [] := rfl
  have written : (emptyDisk.set (resultPath host root a) (some "x")).faults = [] := rfl
  obtain ⟨preview, more, size, metadata, first⟩ := maybeStore_spills hex root "x" "read" a empty (by decide)
  obtain ⟨_, _, _, _, second⟩ := maybeStore_spills hex root "y" "read" b written (by decide)
  have one : SpillStep host root _ _ := .store ⟨emptyDisk, [], []⟩ ⟨a, "read", "x", true⟩ (spillAll root) rfl
  simp only [first] at one
  have two : SpillStep host root _ _ := .store ⟨emptyDisk.set (resultPath host root a) (some "x"),
    [] ++ [⟨a, "read", "x", true⟩], [] ++ shownStored ⟨a, "read", "x", true⟩ (.ok
      ⟨buildPersistedMessage preview more size (resultPath host root a), metadata⟩)⟩ ⟨b, "read", "y", true⟩
    (spillAll root) rfl
  simp only [second] at two
  refine ⟨_, .tail (.tail .refl one) two, rfl, _, List.mem_append_left _ (List.mem_singleton_self _), rfl, ?_⟩
  rintro (verbatim | ⟨other, _, stored⟩)
  · have start : "x".toList.head? = some '<' := Names.head ⟨preview, more, size, verbatim.symm⟩
    exact absurd start (by decide)
  · simp only at stored
    by_cases here : other = resultPath host root b
    · rw [here,Disk.set_same] at stored
      exact absurd stored (by decide)
    · rw [Disk.set_other here,path,Disk.set_other here] at stored
      cases stored

def plainResults : List ToolResult := [⟨"call_1", "read", "x", true⟩, ⟨"call_2", "read", "y", true⟩]

end Zaion.Agent
