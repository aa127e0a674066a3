import Zaion.Session.Failing

/-! Branches without a name. The title of the child is made from the parent's alone, and is a key of
the session table, which takes no key twice. -/
namespace Zaion.Session

open Lib Ledger

/-- A branch that is tried without a name. -/
structure Attempt where
  draw : BranchDraw
  parentSessionId : String
  history : List Turn
  endReason : String

def Attempt.branch (host : Host) (adapter : Adapter) (attempt : Attempt) : Call BranchResult :=
  branchWithParentEndReason host adapter attempt.draw ⟨attempt.parentSessionId, none, attempt.history⟩ attempt.endReason

/-- The world after an attempt, whether it went through or not. -/
def Attempt.after (host : Host) (adapter : Adapter) (attempt : Attempt) (world : World) : World :=
  (attempt.branch host adapter world).2

def World.ids (world : World) : List String := world.sessions.map SessionEntry.sessionId

def World.keys (world : World) : List String := world.sessions.map SessionEntry.sessionKey

/-- What the constraints of the table say. -/
structure World.Keyed (world : World) : Prop where
  ids : world.ids.Nodup
  keys : world.keys.Nodup

/-- A property of every attempt of a sequence and of the world it is made in. -/
def Along (host : Host) (adapter : Adapter) (P : World → Attempt → Prop) : World → List Attempt → Prop
  | _, [] => True
  | world, attempt :: rest => P world attempt ∧ Along host adapter P (attempt.after host adapter world) rest

/-- The world after a sequence of attempts. -/
def afterAll (host : Host) (adapter : Adapter) (world : World) (attempts : List Attempt) : World :=
  attempts.foldl (fun world attempt => attempt.after host adapter world) world

def titleOf : Except SessionError BranchResult → List String
  | .ok result => [result.newTitle]
  | .error _ => []

/-- The titles that were made for the children of a sequence. -/
def titles (host : Host) (adapter : Adapter) : World → List Attempt → List String
  | _, [] => []
  | world, attempt :: rest =>
    titleOf (attempt.branch host adapter world).1 ++ titles host adapter (attempt.after host adapter world) rest

/-- The next number of the title's lineage, or its second. -/
def Follows (title next : String) : Prop :=
  (∃ base n, lineageNumber title = some (base, n) ∧ next = base ++ " #" ++ toString (n + 1)) ∨
    lineageNumber title = none ∧ next = title ++ " #2"

/-- The number of the title is the last of a `u32`. -/
def Overflows (title : String) : Prop := ∃ base n, lineageNumber title = some (base, n) ∧ 2 ^ 32 ≤ n + 1

/-- What a branch asks for besides a title of its own: checked inputs, an id that is new, and a history that can be
copied. -/
structure Ready (host : Host) (adapter : Adapter) (world : World) (attempt : Attempt) (parent : SessionEntry) : Prop where
  reason : trim attempt.endReason ≠ ""
  safe : isUnsafePrincipal parent.principalId = false
  owner : isUnsafePrincipal (adapter.principalFor parent.principalId) = false
  history : attempt.history ≠ []
  newId : attempt.draw.sessionId ∉ world.ids
  copies : ∃ copied events, ∀ sessions, adapter.copyHistory host attempt.draw.events attempt.parentSessionId
    attempt.draw.sessionId ⟨sessions, world.events⟩ = (.ok copied, ⟨sessions, events⟩)

/-- The parent, if there is one, can be branched, the next title of its lineage is no session's key, and there is a
next number. -/
structure Unclaimed (host : Host) (adapter : Adapter) (world : World) (attempt : Attempt) : Prop where
  ready : ∀ parent, lookupSession world.sessions attempt.parentSessionId = some parent →
    Ready host adapter world attempt parent
  free : ∀ parent, lookupSession world.sessions attempt.parentSessionId = some parent → ∀ next,
    Follows parent.sessionKey next → next ∉ world.keys
  small : ∀ parent, lookupSession world.sessions attempt.parentSessionId = some parent → ¬ Overflows parent.sessionKey

/-- An attempt on a session that is there succeeds without an overflow, and no two sessions have one key after it. -/
structure Branches (host : Host) (adapter : Adapter) (world : World) (attempt : Attempt) : Prop where
  succeeds : ∀ parent, lookupSession world.sessions attempt.parentSessionId = some parent →
    ∃ result, (attempt.branch host adapter world).1 = .ok result ∧ Follows parent.sessionKey result.newTitle
  exact : ∀ parent, lookupSession world.sessions attempt.parentSessionId = some parent → ¬ Overflows parent.sessionKey
  distinct : (attempt.after host adapter world).keys.Nodup

section

variable {host : Host} {adapter : Adapter} {world : World} {attempt : Attempt} {parent : SessionEntry}
  {sessions : List SessionEntry} {sessionId key : String}

theorem generateLineageTitle_follows {title : String} (small : ¬ Overflows title) :
    Follows title (generateLineageTitle title) := by
  unfold generateLineageTitle
  cases number : lineageNumber title with
  | none => exact .inr ⟨number, rfl⟩
  | some parts =>
    obtain ⟨base, n⟩ := parts
    have fits : n + 1 < 2 ^ 32 := by
      by_contra large
      exact small ⟨base, n, number, Nat.le_of_not_lt large⟩
    refine .inl ⟨base, n, number, ?_⟩
    dsimp only
    rw [Nat.mod_eq_of_lt fits]

/-! The table -/

theorem lookupSession_none_iff : lookupSession sessions sessionId = none ↔
    sessionId ∉ sessions.map SessionEntry.sessionId := by
  simp only [lookupSession,List.find?_eq_none,decide_eq_true_eq,List.mem_map,not_exists,not_and]

theorem keyFree_iff : keyFree sessions sessionId key = true ↔
    ∀ row ∈ sessions, row.sessionKey = key → row.sessionId = sessionId := by
  simp only [keyFree,List.all_eq_true,Bool.or_eq_true,decide_eq_true_eq]
  exact forall₂_congr fun row _ => by tauto

theorem keyFree_of_new (new : key ∉ sessions.map SessionEntry.sessionKey) : keyFree sessions sessionId key = true := by
  refine keyFree_iff.mpr ?_
  rintro row member rfl
  exact absurd (List.mem_map_of_mem member) new

theorem upsertSession_new {entry : SessionEntry} (absent : lookupSession world.sessions entry.sessionId = none)
    (free : keyFree world.sessions entry.sessionId entry.sessionKey = true) :
    upsertSession entry world = (.ok (), { world with sessions := world.sessions ++ [entry] }) := by
  simp only [upsertSession,free,absent,if_true]

theorem upsertSession_old {entry old : SessionEntry} (there : lookupSession world.sessions entry.sessionId = some old)
    (free : keyFree world.sessions entry.sessionId entry.sessionKey = true) : upsertSession entry world =
      (.ok (), { world with
        sessions := world.sessions.map (atSession entry.sessionId fun old => mergeEntry old entry) }) := by
  simp only [upsertSession,free,there,if_true]
  rfl

theorem storeTitle_free {title now : String} (free : keyFree world.sessions sessionId title = true) :
    storeTitle sessionId title now world = (.ok (), { world with
      sessions := world.sessions.map (atSession sessionId (SessionEntry.entitled title now)) }) := by
  simp only [storeTitle,free,Bool.true_or,if_true]
  rfl

theorem putSession_safe {metadata : SessionMetadata}
    (safe : isUnsafePrincipal (adapter.principalFor metadata.principalId) = false) :
    adapter.putSession sessionId metadata world =
      upsertSession (rowFor sessionId (adapter.principalFor metadata.principalId) metadata) world := by
  have owner : adapter.principalForMetadata metadata = .ok (adapter.principalFor metadata.principalId) := by
    unfold Adapter.principalFor at safe ⊢
    simp only [Adapter.principalForMetadata,ensure_of safe,ok_bind]
  exact Call.bind_run (congrArg (fun result => (result, world)) owner)

theorem lookupSession_mem (found : lookupSession sessions sessionId = some parent) : parent ∈ sessions :=
  List.mem_of_find?_eq_some found

/-- The one row with an id. -/
theorem eq_of_id (ids : (sessions.map SessionEntry.sessionId).Nodup) {a b : SessionEntry} (first : a ∈ sessions)
    (second : b ∈ sessions) (same : a.sessionId = b.sessionId) : a = b := List.inj_on_of_nodup_map ids first second same

theorem rowFor_id (sessionId principalId : String) (metadata : SessionMetadata) :
    (rowFor sessionId principalId metadata).sessionId = sessionId := rfl

theorem rowFor_key (sessionId principalId : String) (metadata : SessionMetadata) :
    (rowFor sessionId principalId metadata).sessionKey = metadata.title.getD sessionId := rfl

/-- A parent written back keeps every id and every key. -/
theorem update_run (keyed : world.Keyed) (there : lookupSession world.sessions parent.sessionId = some parent)
    (owner : isUnsafePrincipal (adapter.principalFor parent.principalId) = false) (reason ended : String) :
    ∃ updated, adapter.updateSession parent.sessionId
        { parent.view with endReason := some reason, endedAt := some ended } world = (.ok (), updated) ∧
      updated.ids = world.ids ∧ updated.keys = world.keys := by
  have member := lookupSession_mem there
  have free : keyFree world.sessions parent.sessionId parent.sessionKey = true := by
    refine keyFree_iff.mpr ?_
    intro row inside same
    rw [List.inj_on_of_nodup_map keyed.keys inside member same]
  generalize shown : ({ parent.view with endReason := some reason, endedAt := some ended } : SessionMetadata) = metadata
  have owner' : isUnsafePrincipal (adapter.principalFor metadata.principalId) = false := by rw [← shown]; exact owner
  have key : (rowFor parent.sessionId (adapter.principalFor metadata.principalId) metadata).sessionKey =
      parent.sessionKey := by
    rw [rowFor_key,← shown]
    rfl
  generalize named : rowFor parent.sessionId (adapter.principalFor metadata.principalId) metadata = row at key
  have id : row.sessionId = parent.sessionId := by rw [← named,rowFor_id]
  have written : adapter.updateSession parent.sessionId metadata world = (.ok (), { world with
      sessions := world.sessions.map (atSession parent.sessionId fun old => mergeEntry old row) }) := by
    have free' : keyFree world.sessions row.sessionId row.sessionKey = true := by
      rw [id,key]
      exact free
    rw [Adapter.updateSession,putSession_safe owner',named,upsertSession_old (id ▸ there) free',id]
  refine ⟨_, written, ?_, ?_⟩
  · rw [World.ids,List.map_map]
    exact List.map_congr_left fun old _ => atSession_id (mergeEntry_id row) old
  · rw [World.keys,List.map_map]
    refine List.map_congr_left fun old inside => ?_
    rw [Function.comp_apply,atSession]
    split
    · next same =>
      rw [List.inj_on_of_nodup_map keyed.ids inside member same]
      exact key
    · rfl

/-- A child whose id and title are new is added with them. -/
theorem create_run {title now : String} {metadata : SessionMetadata}
    (safe : isUnsafePrincipal (adapter.principalFor metadata.principalId) = false) (titled : metadata.title = some title)
    (absent : metadata.sessionId ∉ world.ids) (new : title ∉ world.keys) :
    ∃ created child, adapter.createSession metadata world = (.ok (), created) ∧
      storeTitle metadata.sessionId title now created =
        (.ok (), { world with sessions := world.sessions ++ [child] }) ∧
      child.sessionId = metadata.sessionId ∧ child.sessionKey = title := by
  have fresh : lookupSession world.sessions metadata.sessionId = none := lookupSession_none_iff.mpr absent
  have key : (rowFor metadata.sessionId (adapter.principalFor metadata.principalId) metadata).sessionKey = title := by
    rw [rowFor_key,titled]
    rfl
  generalize named : rowFor metadata.sessionId (adapter.principalFor metadata.principalId) metadata = row at key
  have id : row.sessionId = metadata.sessionId := by rw [← named,rowFor_id]
  refine ⟨{ world with sessions := world.sessions ++ [row] }, row.entitled title now, ?_, ?_, id, rfl⟩
  · rw [Adapter.createSession,putSession_safe safe,named]
    exact upsertSession_new (id ▸ fresh) (keyFree_of_new (key ▸ new))
  · have free : keyFree (world.sessions ++ [row]) metadata.sessionId title = true := by
      refine keyFree_iff.mpr ?_
      intro row' inside same
      obtain inside | inside := List.mem_append.mp inside
      · exact absurd (same ▸ List.mem_map_of_mem inside) new
      · rw [List.mem_singleton.mp inside,id]
    rw [storeTitle_free free,List.map_append,map_atSession_absent fresh,List.map_singleton,atSession_self id]

theorem keyed_concat (keyed : world.Keyed) {child : SessionEntry} (absent : child.sessionId ∉ world.ids)
    (new : child.sessionKey ∉ world.keys) : ({ world with sessions := world.sessions ++ [child] } : World).Keyed := by
  constructor
  · rw [World.ids,List.map_append,List.map_singleton,← List.concat_eq_append]
    exact keyed.ids.concat absent
  · rw [World.keys,List.map_append,List.map_singleton,← List.concat_eq_append]
    exact keyed.keys.concat new

theorem check_run {α β : Type} {result : Except SessionError α} {a : α} {next : α → Call β} (passed : result = .ok a) :
    (Call.check result >>= next) world = next a world := Call.bind_run (congrArg (fun result => (result, world)) passed)

/-- The metadata of a child. -/
def childMetadata (attempt : Attempt) (parent : SessionEntry) : SessionMetadata := { parent.view with
  sessionId := attempt.draw.sessionId
  parentSessionId := some attempt.parentSessionId
  title := some (generateLineageTitle parent.sessionKey)
  endReason := none
  createdAt := attempt.draw.createdAt
  endedAt := none }

/-- A branch that is ready and whose title is new goes through: one id and one key more. -/
theorem branch_run (keyed : world.Keyed) (there : lookupSession world.sessions attempt.parentSessionId = some parent)
    (ready : Ready host adapter world attempt parent) (new : generateLineageTitle parent.sessionKey ∉ world.keys) :
    ∃ result world', attempt.branch host adapter world = (.ok result, world') ∧
      result.newTitle = generateLineageTitle parent.sessionKey ∧
      world'.ids = world.ids ++ [attempt.draw.sessionId] ∧
      world'.keys = world.keys ++ [generateLineageTitle parent.sessionKey] := by
  obtain ⟨copied, events, copies⟩ := ready.copies
  have id := lookupSession_id there
  obtain ⟨created, child, create, entitle, childId, childKey⟩ :
      ∃ created child, adapter.createSession (childMetadata attempt parent) world = (.ok (), created) ∧
        storeTitle attempt.draw.sessionId (generateLineageTitle parent.sessionKey) attempt.draw.titledAt created =
          (.ok (), { world with sessions := world.sessions ++ [child] }) ∧
        child.sessionId = attempt.draw.sessionId ∧ child.sessionKey = generateLineageTitle parent.sessionKey :=
    create_run ready.owner rfl ready.newId new
  have keyed' : (⟨world.sessions ++ [child], events⟩ : World).Keyed := by
    obtain ⟨ids, keys⟩ := keyed_concat keyed (childId ▸ ready.newId) (childKey ▸ new)
    exact ⟨ids, keys⟩
  have there' : lookupSession (world.sessions ++ [child]) parent.sessionId = some parent := by
    have other : parent.sessionId ≠ child.sessionId := by
      intro same
      rw [childId] at same
      exact ready.newId (same ▸ List.mem_map_of_mem (lookupSession_mem there))
    rw [lookupSession_concat other,id,there]
  obtain ⟨updated, update, ids, keys⟩ : ∃ updated, adapter.updateSession parent.sessionId
        { parent.view with endReason := some attempt.endReason, endedAt := some attempt.draw.endedAt }
        ⟨world.sessions ++ [child], events⟩ = (.ok (), updated) ∧
      updated.ids = World.ids ⟨world.sessions ++ [child], events⟩ ∧
      updated.keys = World.keys ⟨world.sessions ++ [child], events⟩ :=
    update_run keyed' there' ready.owner attempt.endReason attempt.draw.endedAt
  refine ⟨⟨attempt.draw.sessionId, generateLineageTitle parent.sessionKey, attempt.parentSessionId, copied⟩, updated,
    ?_, rfl, ?_, ?_⟩
  · refine (check_run (ensure_of ready.reason)).trans ((Call.bind_run (getSession_run _ world)).trans ?_)
    rw [there]
    refine (check_run (required_some parent.view _)).trans ((check_run (ensure_of ready.safe)).trans ?_)
    refine (check_run (ensure_of ready.history)).trans ?_
    have title : Adapter.getTitle attempt.parentSessionId world = (.ok (some parent.sessionKey), world) := by
      rw [Adapter.getTitle,there]
      rfl
    refine (Call.bind_run title).trans ((Call.bind_run create).trans ((Call.bind_run entitle).trans ?_))
    refine (Call.bind_run (copies (world.sessions ++ [child]))).trans ?_
    rw [id] at update
    exact Call.bind_run update
  · rw [ids,World.ids,List.map_append,List.map_singleton,childId]
    rfl
  · rw [keys,World.keys,List.map_append,List.map_singleton,childKey]
    rfl

theorem check_stop {α β : Type} {result : Except SessionError α} {e : SessionError} {next : α → Call β}
    (failed : result = .error e) : (Call.check result >>= next) world = (.error e, world) := by
  rw [failed]
  rfl

/-- Without its parent a branch does nothing. -/
theorem branch_missing (missing : lookupSession world.sessions attempt.parentSessionId = none) :
    ∃ e, attempt.branch host adapter world = (.error e, world) := by
  by_cases reason : trim attempt.endReason ≠ ""
  · refine ⟨.message ("Parent session not found: " ++ attempt.parentSessionId), ?_⟩
    refine (check_run (ensure_of reason)).trans ((Call.bind_run (getSession_run _ world)).trans ?_)
    rw [missing]
    exact check_stop (required_none _)
  · exact ⟨.message "parent end reason cannot be empty", check_stop (ensure_error_iff.mpr ⟨reason, rfl⟩)⟩

/-- A branch that goes through under a new id has a title that is new. -/
theorem branch_ok_new {result : BranchResult} {world' : World}
    (run : attempt.branch host adapter world = (.ok result, world'))
    (there : lookupSession world.sessions attempt.parentSessionId = some parent)
    (newId : attempt.draw.sessionId ∉ world.ids) : generateLineageTitle parent.sessionKey ∉ world.keys := by
  obtain ⟨_, w0, reasoned, run⟩ := Call.bind_ok run
  obtain ⟨found, w1, got, run⟩ := Call.bind_ok run
  obtain ⟨metadata, w2, known, run⟩ := Call.bind_ok run
  obtain ⟨_, w3, safe, run⟩ := Call.bind_ok run
  obtain ⟨_, w4, nonempty, run⟩ := Call.bind_ok run
  obtain ⟨title, w5, named, run⟩ := Call.bind_ok run
  obtain ⟨_, w6, created, run⟩ := Call.bind_ok run
  obtain ⟨_, rfl⟩ := Call.check_ok reasoned
  obtain ⟨_, rfl⟩ := getSession_ok got
  obtain ⟨_, rfl⟩ := Call.check_ok known
  obtain ⟨_, rfl⟩ := Call.check_ok safe
  obtain ⟨_, rfl⟩ := Call.check_ok nonempty
  have key : title = (lookupSession w4.sessions attempt.parentSessionId).map SessionEntry.sessionKey := by
    cases named
    rfl
  obtain rfl := getTitle_world named
  have free := (putSession_free created).2
  rw [key,there] at free
  intro taken
  obtain ⟨row, inside, same⟩ := List.mem_map.mp taken
  have own : row.sessionId = attempt.draw.sessionId := keyFree_iff.mp free row inside same
  exact newId (own ▸ List.mem_map_of_mem inside)

/-- What is ready to be branched is branched exactly when the title that is made for the child is new. -/
theorem branch_ok_iff (keyed : world.Keyed) (there : lookupSession world.sessions attempt.parentSessionId = some parent)
    (ready : Ready host adapter world attempt parent) :
    (∃ result, (attempt.branch host adapter world).1 = .ok result) ↔
      generateLineageTitle parent.sessionKey ∉ world.keys := by
  constructor
  · rintro ⟨result, succeeded⟩
    cases run : attempt.branch host adapter world with
    | mk outcome world' =>
      rw [run] at succeeded
      cases succeeded
      exact branch_ok_new run there ready.newId
  · intro new
    obtain ⟨result, world', run, _⟩ := branch_run keyed there ready new
    exact ⟨result, congrArg Prod.fst run⟩

/-! One attempt, and all of them. -/

theorem afterAll_cons (attempts : List Attempt) : afterAll host adapter world (attempt :: attempts) =
    afterAll host adapter (attempt.after host adapter world) attempts := by
  rw [afterAll,List.foldl_cons,← afterAll]

theorem titles_cons (attempts : List Attempt) : titles host adapter world (attempt :: attempts) =
    titleOf (attempt.branch host adapter world).1 ++ titles host adapter (attempt.after host adapter world) attempts := rfl

/-- What an attempt on an unclaimed title does. -/
theorem Unclaimed.step (keyed : world.Keyed) (unclaimed : Unclaimed host adapter world attempt) :
    Branches host adapter world attempt ∧ (attempt.after host adapter world).Keyed ∧
      (attempt.after host adapter world).keys = world.keys ++ titleOf (attempt.branch host adapter world).1 := by
  cases there : lookupSession world.sessions attempt.parentSessionId with
  | none =>
    obtain ⟨e, run⟩ : ∃ e, attempt.branch host adapter world = (.error e, world) := branch_missing there
    have after : attempt.after host adapter world = world := congrArg Prod.snd run
    rw [run,after]
    refine ⟨⟨?_, unclaimed.small, ?_⟩, keyed, (List.append_nil _).symm⟩
    · intro parent found
      rw [there] at found
      cases found
    · rw [after]
      exact keyed.keys
  | some parent =>
    have follows := generateLineageTitle_follows (unclaimed.small parent there)
    have new := unclaimed.free parent there _ follows
    have ready := unclaimed.ready parent there
    obtain ⟨result, world', run, title, ids, keys⟩ := branch_run keyed there ready new
    have after : attempt.after host adapter world = world' := congrArg Prod.snd run
    have keyed' : world'.Keyed := by
      constructor
      · rw [ids,← List.concat_eq_append]
        exact keyed.ids.concat ready.newId
      · rw [keys,← List.concat_eq_append]
        exact keyed.keys.concat new
    rw [run,after]
    refine ⟨⟨?_, unclaimed.small, after ▸ keyed'.keys⟩, keyed', ?_⟩
    · intro other found
      obtain rfl := Option.some.inj (there.symm.trans found)
      exact ⟨result, congrArg Prod.fst run, title ▸ follows⟩
    · rw [keys,titleOf,title]

/-- As long as nothing has the next title of a lineage and its number is not the last, every attempt on a session that
is there succeeds, and the keys are those of the start and the titles made since, all of them distinct. -/
theorem lineage_titles_distinct (host : Host) (adapter : Adapter) {world : World} (keyed : world.Keyed)
    (attempts : List Attempt) (unclaimed : Along host adapter (Unclaimed host adapter) world attempts) :
    Along host adapter (Branches host adapter) world attempts ∧
      (afterAll host adapter world attempts).keys = world.keys ++ titles host adapter world attempts ∧
      (world.keys ++ titles host adapter world attempts).Nodup := by
  induction attempts generalizing world with
  | nil => exact ⟨trivial, (List.append_nil _).symm, by rw [titles,List.append_nil]; exact keyed.keys⟩
  | cons attempt rest ih =>
    obtain ⟨here, later⟩ := unclaimed
    obtain ⟨branches, keyed', keys⟩ := here.step keyed
    obtain ⟨all, ends, distinct⟩ := ih keyed' later
    rw [keys,List.append_assoc] at ends distinct
    rw [afterAll_cons,titles_cons]
    exact ⟨⟨branches, all⟩, ends, distinct⟩

end

/-! Two branches of one session. -/

/-- A branch of the session of the quiet world at noon, and another one a minute later. -/
def noonAttempt : Attempt := ⟨noonDraw, "20260101_000000_00000000", [⟨"user", "try it"⟩], "branched"⟩

def laterAttempt : Attempt :=
  ⟨{ noonDraw with sessionId := "20260101_120100_1a2b3c4d" }, "20260101_000000_00000000", [⟨"user", "again"⟩], "branched"⟩

theorem quiet_parent {parent : SessionEntry}
    (found : lookupSession quietWorld.sessions "20260101_000000_00000000" = some parent) :
    parent.principalId = "zaion1alice" ∧ parent.sessionKey = "Session" := by
  obtain rfl := List.mem_singleton.mp (List.mem_of_find?_eq_some found)
  exact ⟨rfl, rfl⟩

theorem noonAttempt_unclaimed : Unclaimed sampleHost aliceAdapter quietWorld noonAttempt where
  ready := by
    intro parent found
    have principal := (quiet_parent found).1
    have safe : isUnsafePrincipal parent.principalId = false := by rw [principal,alice_safe]
    have owner : isUnsafePrincipal (aliceAdapter.principalFor parent.principalId) = false := by
      rw [principal,Adapter.principalFor,if_neg alice_named,alice_safe]
    refine ⟨branched_named, safe, owner, List.cons_ne_nil _ _, by decide, 0, [], ?_⟩
    intro sessions
    simp [Adapter.copyHistory,Adapter.sourceEvents,listEvents,mapAll,copyEvents,bind,Call.andThen,Call.check,Call.ret,
      aliceAdapter,noonAttempt,noonDraw,quietWorld,quiet_named,noon_named]
  free := by
    intro parent found next follows
    rw [(quiet_parent found).2] at follows
    obtain ⟨base, n, number, _⟩ | ⟨_, rfl⟩ := follows
    · rw [session_number] at number
      cases number
    · decide
  small := by
    intro parent found
    rw [(quiet_parent found).2]
    rintro ⟨base, n, number, _⟩
    rw [session_number] at number
    cases number

theorem quietWorld_keyed : quietWorld.Keyed := ⟨by decide, by decide⟩

theorem noon_branch_distinct : Along sampleHost aliceAdapter (Branches sampleHost aliceAdapter) quietWorld [noonAttempt] ∧
    (afterAll sampleHost aliceAdapter quietWorld [noonAttempt]).keys.Nodup := by
  obtain ⟨branches, ends, distinct⟩ :=
    lineage_titles_distinct sampleHost aliceAdapter quietWorld_keyed [noonAttempt] ⟨noonAttempt_unclaimed, trivial⟩
  exact ⟨branches, ends ▸ distinct⟩

/-- The quiet world after the first branch. -/
def branchedWorld : World where
  sessions := [
    { sessionId := "20260101_000000_00000000", principalId := "zaion1alice", platform := "cli"
      chatId := "default", userId := none, threadId := none, sessionKey := "Session"
      createdAt := "2026-01-01T00:00:00.000Z", updatedAt := "2026-01-01T00:00:00.000Z"
      messageCount := 0, toolCallCount := 0, estimatedCostUsd := 0, memoryFlushed := false
      wasAutoReset := false, autoResetReason := none, parentSessionId := none, endReason := some "branched" },
    { sessionId := "20260101_120000_9f8e7d6c", principalId := "zaion1alice", platform := "cli"
      chatId := "default", userId := none, threadId := none, sessionKey := "Session #2"
      createdAt := "2026-01-01T12:00:00.000Z", updatedAt := "2026-01-01T12:00:00Z"
      messageCount := 0, toolCallCount := 0, estimatedCostUsd := 0, memoryFlushed := false
      wasAutoReset := false, autoResetReason := none, parentSessionId := some "20260101_000000_00000000"
      endReason := none }]
  events := []

theorem noonAttempt_after : noonAttempt.after sampleHost aliceAdapter quietWorld = branchedWorld := by
  simp [Attempt.after,Attempt.branch,branchWithParentEndReason,Adapter.getSession,Adapter.getTitle,Adapter.createSession,
    Adapter.updateSession,Adapter.putSession,Adapter.principalForMetadata,Adapter.copyHistory,
    Adapter.sourceEvents,listEvents,mapAll,copyEvents,bind,Call.andThen,Call.check,Call.ret,
    Except.bind,alice_safe,alice_named,branched_named,quiet_named,noon_named,session_second,upsertSession,storeTitle,keyFree,quietWorld,
    lookupSession,noonDraw,aliceAdapter,noonAttempt,branchedWorld,mergeEntry]

/-- The second branch of a session is refused: its title is the first one's. -/
theorem second_branch_refused : quietWorld.Keyed ∧
    (∃ parent, lookupSession (noonAttempt.after sampleHost aliceAdapter quietWorld).sessions
      laterAttempt.parentSessionId = some parent) ∧
    (laterAttempt.branch sampleHost aliceAdapter (noonAttempt.after sampleHost aliceAdapter quietWorld)).1 =
      .error .sqliteConstraint ∧
    ¬ Along sampleHost aliceAdapter (Branches sampleHost aliceAdapter) quietWorld [noonAttempt, laterAttempt] := by
  have there : ∃ parent, lookupSession (noonAttempt.after sampleHost aliceAdapter quietWorld).sessions
      laterAttempt.parentSessionId = some parent := by
    rw [noonAttempt_after]
    exact ⟨_, rfl⟩
  have refused : (laterAttempt.branch sampleHost aliceAdapter (noonAttempt.after sampleHost aliceAdapter quietWorld)).1 =
      .error .sqliteConstraint := by
    rw [noonAttempt_after]
    simp [Attempt.branch,branchWithParentEndReason,Adapter.getSession,Adapter.getTitle,Adapter.createSession,
      Adapter.putSession,Adapter.principalForMetadata,bind,Call.andThen,Call.check,
      Except.bind,alice_safe,alice_named,branched_named,session_second,upsertSession,keyFree,
      lookupSession,noonDraw,aliceAdapter,laterAttempt,branchedWorld]
  refine ⟨quietWorld_keyed, there, refused, ?_⟩
  rintro ⟨_, branches, _⟩
  obtain ⟨parent, found⟩ := there
  obtain ⟨result, succeeded, _⟩ := branches.succeeds parent found
  rw [refused] at succeeded
  cases succeeded

end Zaion.Session
