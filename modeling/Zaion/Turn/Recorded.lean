import Zaion.Turn.Exclusive
import Mathlib.Data.List.Chain

/-! The life of a turn. Its stages, from admission to the state its row is in now, are
what its outbox rows were written from, one row to a stage. -/
namespace Zaion.Turn

open Lib

/-- One state of a turn, as it was entered. -/
structure Stage where
  state : TurnState
  terminalHash : Option String
  time : DateTime

namespace Stage

def precedes (a b : Stage) : Prop :=
  a.state.canTransitionTo b.state = true ∧ a.time.millis ≤ b.time.millis

/-- The row that entering the stage writes. -/
def entry (host : Host) (stage : Stage) (turn : TurnCore) (previous : Option TurnState) (revision : Nat) :
    OutboxEntry :=
  OutboxEntry.written host turn previous stage.state revision stage.terminalHash stage.time.floor

end Stage

/-- The rows of successive stages, the first of them at a revision, after a state. -/
def entriesFrom (host : Host) (turn : TurnCore) : Nat → Option TurnState → List Stage → List OutboxEntry
  | _, _, [] => []
  | revision, previous, stage :: rest =>
    stage.entry host turn previous revision :: entriesFrom host turn (revision + 1) (some stage.state) rest

section

variable {host : Host} {turn : TurnCore} {revision : Nat} {previous : Option TurnState}

theorem entriesFrom_append (stages : List Stage) (last : Stage) :
    entriesFrom host turn revision previous (stages ++ [last]) =
      entriesFrom host turn revision previous stages ++
        [last.entry host turn ((stages.getLast?.map Stage.state).or previous) (revision + stages.length)] := by
  induction stages generalizing revision previous with
  | nil => simp [entriesFrom]
  | cons stage stages ih =>
    simp only [List.cons_append,entriesFrom,ih,List.length_cons,List.getLast?_cons]
    cases stages.getLast? <;> simp [Nat.add_comm,Nat.add_left_comm]

theorem entriesFrom_revisions (stages : List Stage) :
    (entriesFrom host turn revision previous stages).map OutboxEntry.revision =
      List.range' revision stages.length := by
  induction stages generalizing revision previous with
  | nil => rfl
  | cons stage stages ih =>
    rw [entriesFrom,List.map_cons,ih,List.length_cons,List.range'_succ]
    rfl

theorem entriesFrom_length (stages : List Stage) :
    (entriesFrom host turn revision previous stages).length = stages.length := by
  induction stages generalizing revision previous with
  | nil => rfl
  | cons stage stages ih => rw [entriesFrom,List.length_cons,ih,List.length_cons]

theorem mem_entriesFrom {stages : List Stage} {e : OutboxEntry}
    (member : e ∈ entriesFrom host turn revision previous stages) :
    ∃ stage ∈ stages, ∃ before n, revision ≤ n ∧ n < revision + stages.length ∧
      e = stage.entry host turn before n := by
  induction stages generalizing revision previous with
  | nil => cases member
  | cons stage stages ih =>
    rcases List.mem_cons.mp member with rfl | later
    · exact ⟨stage, List.mem_cons_self, previous, revision, Nat.le_refl _, by simp, rfl⟩
    · obtain ⟨s, inside, before, n, low, high, same⟩ := ih later
      exact ⟨s, List.mem_cons_of_mem _ inside, before, n, by omega, by simp; omega, same⟩

end

/-- The stages of a turn up to the state its row is in. -/
structure Life (limits : Limits) (turn : TurnRow) (stages : List Stage) : Prop where
  first : ∃ s, stages.head? = some s ∧ s.state.isTerminal = false ∧ limits.genesis s.state ∧
    s.time.millis = turn.createdAtMs
  chain : stages.IsChain Stage.precedes
  last : ∃ s, stages.getLast? = some s ∧ s.state = turn.state ∧ s.terminalHash = turn.terminalHash ∧
    s.time.millis = turn.updatedAtMs
  length : stages.length = turn.revision + 1
  bound : turn.revision ≤ i64MaxNat
  result : ∀ s ∈ stages, s.terminalHash.isSome = s.state.isTerminal
  clock : ∀ s ∈ stages, limits.clock s.time

theorem Life.admitted {limits : Limits} {turn : TurnRow} {now : DateTime}
    (live : turn.state.isTerminal = false) (genesis : limits.genesis turn.state) (clock : limits.clock now)
    (revision : turn.revision = 0) (terminalHash : turn.terminalHash = none)
    (created : turn.createdAtMs = now.millis) (updated : turn.updatedAtMs = now.millis) :
    Life limits turn [⟨turn.state, none, now⟩] where
  first := ⟨_, rfl, live, genesis, created.symm⟩
  chain := .singleton _
  last := ⟨_, rfl, rfl, terminalHash.symm, updated.symm⟩
  length := by simp [revision]
  bound := by simp [revision]
  result := by simp [live]
  clock := by simp [clock]

theorem Life.advanced {limits : Limits} {turn : TurnRow} {stages : List Stage} {next : TurnState}
    {terminalJson terminalHash : Option String} {now : DateTime} (life : Life limits turn stages)
    (legal : turn.state.canTransitionTo next = true) (result : terminalHash.isSome = next.isTerminal)
    (monotone : turn.updatedAtMs ≤ now.millis) (bound : turn.revision + 1 ≤ i64MaxNat)
    (clock : limits.clock now) :
    Life limits (turn.advanced next (turn.revision + 1) terminalJson terminalHash now)
      (stages ++ [⟨next, terminalHash, now⟩]) := by
  obtain ⟨end_, last, state, _, time⟩ := life.last
  refine ⟨?_, ?_, ⟨⟨next, terminalHash, now⟩, by simp, rfl, rfl, rfl⟩, by simp [TurnRow.advanced,life.length],
    bound, ?_, ?_⟩
  · obtain ⟨s, head, rest⟩ := life.first
    exact ⟨s, by simp [List.head?_append,head], rest⟩
  · refine life.chain.append (.singleton _) ?_
    intro x isLast y isNext
    rw [last] at isLast
    cases isLast
    cases isNext
    exact ⟨state ▸ legal, time ▸ monotone⟩
  · intro s member
    rcases List.mem_append.mp member with old | new
    · exact life.result s old
    · rw [List.mem_singleton.mp new]
      exact result
  · intro s member
    rcases List.mem_append.mp member with old | new
    · exact life.clock s old
    · rw [List.mem_singleton.mp new]
      exact clock

/-- Whose row it is. -/
def OutboxEntry.ofTurn (entry : OutboxEntry) (turn : TurnCore) : Bool :=
  entry.tenantId = turn.tenantId && entry.turnId = turn.turnId

theorem OutboxEntry.ofTurn_iff {entry : OutboxEntry} {turn : TurnRow} :
    entry.ofTurn turn.toTurnCore = true ↔ turn.key = (entry.tenantId, entry.turnId) := by
  simp only [ofTurn,TurnRow.key,Bool.and_eq_true,decide_eq_true_eq,Prod.mk.injEq]
  exact and_congr eq_comm eq_comm

theorem filter_own {entries : List OutboxEntry} {entry : OutboxEntry} {turn : TurnCore}
    (own : entry.ofTurn turn = true) :
    (entries ++ [entry]).filter (·.ofTurn turn) = entries.filter (·.ofTurn turn) ++ [entry] := by
  simp [own]

theorem filter_foreign {entries : List OutboxEntry} {entry : OutboxEntry} {turn : TurnRow}
    (foreign : turn.key ≠ (entry.tenantId, entry.turnId)) :
    (entries ++ [entry]).filter (·.ofTurn turn.toTurnCore) = entries.filter (·.ofTurn turn.toTurnCore) := by
  have other : entry.ofTurn turn.toTurnCore = false :=
    Bool.eq_false_iff.mpr (fun own => foreign (OutboxEntry.ofTurn_iff.mp own))
  simp [other]

/-- The outbox holds the life of every turn and nothing else. -/
structure Recorded (host : Host) (limits : Limits) (turns : List TurnRow) (entries : List OutboxEntry) :
    Prop where
  lives : ∀ t ∈ turns, ∃ stages, Life limits t stages ∧
    entries.filter (·.ofTurn t.toTurnCore) = entriesFrom host t.toTurnCore 0 none stages
  owned : ∀ e ∈ entries, ∃ t ∈ turns, t.key = (e.tenantId, e.turnId)
  reads : ∀ t ∈ turns, ∃ record, materializeTurn host t = .ok record

theorem Recorded.empty (host : Host) (limits : Limits) : Recorded host limits [] [] where
  lives := by simp
  owned := by simp
  reads := by simp

section

variable {host : Host} {limits : Limits} {turns : List TurnRow} {entries : List OutboxEntry}
  (recorded : Recorded host limits turns entries)
include recorded

theorem Recorded.admitRow {turn : TurnRow} {now : DateTime} (fresh : ∀ t ∈ turns, t.key ≠ turn.key)
    (life : Life limits turn [⟨turn.state, none, now⟩]) (revision : turn.revision = 0)
    (reads : ∃ record, materializeTurn host turn = .ok record) :
    Recorded host limits (turns ++ [turn]) (entries ++ [turn.entry host none none now]) where
  lives := by
    intro t member
    rcases List.mem_append.mp member with old | new
    · obtain ⟨stages, life, rows⟩ := recorded.lives t old
      exact ⟨stages, life, (filter_foreign (fresh t old)).trans rows⟩
    · obtain rfl := List.mem_singleton.mp new
      have before : entries.filter (·.ofTurn t.toTurnCore) = [] := by
        rw [List.filter_eq_nil_iff]
        intro e inside own
        obtain ⟨other, known, key⟩ := recorded.owned e inside
        exact fresh other known (key.trans (OutboxEntry.ofTurn_iff.mp own).symm)
      refine ⟨_, life, ?_⟩
      rw [filter_own (OutboxEntry.ofTurn_iff.mpr rfl),before]
      simp [entriesFrom,Stage.entry,TurnRow.entry,revision]
  owned := by
    intro e member
    rcases List.mem_append.mp member with old | new
    · obtain ⟨t, known, key⟩ := recorded.owned e old
      exact ⟨t, List.mem_append_left _ known, key⟩
    · rw [List.mem_singleton.mp new]
      exact ⟨turn, by simp, rfl⟩
  reads := by
    intro t member
    rcases List.mem_append.mp member with old | new
    · exact recorded.reads t old
    · exact List.mem_singleton.mp new ▸ reads

theorem Recorded.advance {row : TurnRow} {next : TurnState} {terminalJson terminalHash : Option String}
    {now : DateTime} (keyed : Table.Keyed TurnRow.key turns) (turn : row ∈ turns)
    (legal : row.state.canTransitionTo next = true) (result : terminalHash.isSome = next.isTerminal)
    (monotone : row.updatedAtMs ≤ now.millis) (bound : row.revision + 1 ≤ i64MaxNat)
    (clock : limits.clock now)
    (reads : ∃ record, materializeTurn host
      (row.advanced next (row.revision + 1) terminalJson terminalHash now) = .ok record) :
    Recorded host limits
      (Table.modify TurnRow.key row.key (·.advanced next (row.revision + 1) terminalJson terminalHash now) turns)
      (entries ++ [(row.advanced next (row.revision + 1) terminalJson terminalHash now).entry host
        (some row.state) terminalHash now]) where
  lives := by
    intro t member
    rcases Table.mem_modify.mp member with ⟨s, old, same, rfl⟩ | ⟨old, other⟩
    · obtain rfl := keyed.eq_of_key old turn same
      obtain ⟨stages, life, rows⟩ := recorded.lives s old
      obtain ⟨end_, last, state, _⟩ := life.last
      refine ⟨_, life.advanced legal result monotone bound clock, ?_⟩
      have core : (s.advanced next (s.revision + 1) terminalJson terminalHash now).toTurnCore =
        s.toTurnCore := rfl
      rw [core,filter_own (OutboxEntry.ofTurn_iff.mpr rfl),rows,entriesFrom_append]
      simp [last,state,life.length,Stage.entry,TurnRow.entry,TurnRow.advanced]
    · obtain ⟨stages, life, rows⟩ := recorded.lives t old
      exact ⟨stages, life, (filter_foreign other).trans rows⟩
  owned := by
    have stays : ∀ t ∈ turns, ∃ t' ∈ Table.modify TurnRow.key row.key
        (·.advanced next (row.revision + 1) terminalJson terminalHash now) turns, t'.key = t.key := by
      intro t known
      apply Table.exists_mem_modify TurnRow.key TurnRow.key _ known
      exact fun _ _ _ => rfl
    intro e member
    rcases List.mem_append.mp member with old | new
    · obtain ⟨t, known, key⟩ := recorded.owned e old
      obtain ⟨t', known', key'⟩ := stays t known
      exact ⟨t', known', key'.trans key⟩
    · rw [List.mem_singleton.mp new]
      exact stays row turn
  reads := by
    intro t member
    rcases Table.mem_modify.mp member with ⟨s, old, same, rfl⟩ | ⟨old, _⟩
    · obtain rfl := keyed.eq_of_key old turn same
      exact reads
    · exact recorded.reads t old

/-- Every row of the outbox is one that a state change of its turn wrote. -/
theorem Recorded.written {e : OutboxEntry} (member : e ∈ entries) :
    ∃ t ∈ turns, ∃ stage : Stage, ∃ before n, n ≤ t.revision ∧
      e = stage.entry host t.toTurnCore before n := by
  obtain ⟨t, known, key⟩ := recorded.owned e member
  obtain ⟨stages, life, rows⟩ := recorded.lives t known
  have inside : e ∈ entries.filter (·.ofTurn t.toTurnCore) :=
    List.mem_filter.mpr ⟨member, OutboxEntry.ofTurn_iff.mpr key⟩
  rw [rows] at inside
  obtain ⟨stage, _, before, n, _, high, same⟩ := mem_entriesFrom inside
  have := life.length
  exact ⟨t, known, stage, before, n, by omega, same⟩

end

variable {host : Host} {limits : Limits} {db db' : Database}

/-- The columns of the outbox that no later update changes. -/
def Database.entries (db : Database) : List OutboxEntry := db.outbox.map OutboxRow.toOutboxEntry

theorem appendEntry_entries (entry : OutboxEntry) : (db.appendEntry entry).entries = db.entries ++ [entry] := by
  simp [Database.entries,Database.appendEntry,insertOrder,OutboxEntry.pending]

theorem setOutbox_entries {key : String × String} {f : OutboxRow → OutboxRow}
    (kept : ∀ o, (f o).toOutboxEntry = o.toOutboxEntry) : (db.setOutbox key f).entries = db.entries :=
  Table.map_modify (fun o _ _ => kept o)

theorem Recorded.turnStep (recorded : Recorded host limits db.turns db.entries)
    (exclusive : Exclusive db.actors db.turns) (step : TurnStep host limits db db') :
    Recorded host limits db'.turns db'.entries := by
  cases step with
  | admitRow turn owner now admission genesis clock =>
    have live : turn.state.isTerminal = false := by
      rcases admission.genesis with state | state <;> rw [state] <;> rfl
    rw [Database.admitRow,appendEntry_entries]
    exact recorded.admitRow admission.fresh (Life.admitted live genesis clock admission.revision
      admission.terminalHash admission.created admission.updated) admission.revision admission.reads
  | advance row next terminalJson terminalHash owner now advance clock =>
    rw [Database.advance,appendEntry_entries]
    exact recorded.advance exclusive.turnKeys (Table.mem_of_select advance.found) advance.legal
      advance.result advance.monotone advance.insertable.bound clock advance.reads
  | addActor | clear => exact recorded

theorem Recorded.step (recorded : Recorded host limits db.turns db.entries)
    (exclusive : Exclusive db.actors db.turns) (step : Step host limits db db') :
    Recorded host limits db'.turns db'.entries := by
  cases step with
  | turn step => exact recorded.turnStep exclusive step
  | claim | renew | release | quarantine | deliver =>
    rw [setOutbox_entries]
    · exact recorded
    · exact fun _ => rfl
  | repair | ledger | migrate => exact recorded

end Zaion.Turn
