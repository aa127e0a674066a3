import Zaion.Agent.Context

/-! Whether the context keeps within its budget and lists the latest events. The ledger answers with its
twenty latest events, and of these the ten oldest are looked at. -/
namespace Zaion.Agent

open Lib Ledger ContextEngine

/-- The chunk lists the event of the row. -/
def Lists (chunk : ContextChunk) (row : EventRow) : Prop := "ledger:event:" ++ row.eventId ∈ chunk.lineage

/-- Ten events at most are listed, and with an event all that are newer. -/
structure ListsLatest (table : List EventRow) (chunk : ContextChunk) : Prop where
  few : chunk.lineage.length ≤ 10
  newest : ∀ old ∈ table, ∀ new ∈ table, old.seqNum < new.seqNum → Lists chunk old → Lists chunk new

/-- The context keeps to its budget and lists the latest events. -/
structure Assembled (principalId : String) (tokenBudget : Nat) (table : List EventRow) (built : BuiltContext) : Prop where
  tokens : (built.chunks.map ContextChunk.tokenEstimate).sum ≤ max tokenBudget (principalChunk principalId).tokenEstimate
  balance : built.budgetUsed + built.budgetRemaining = tokenBudget
  latest : ∀ chunk ∈ built.chunks, chunk.label = "recent_events" → ListsLatest table chunk

def lineOf (e : LedgerEvent) : String := eventLine ((seconds e.createdAt).getD "") e.eventType

/-- The oldest event looked at is already too long, so that none is listed. -/
def NoneListed (events : List LedgerEvent) (left : Nat) : Prop :=
  ∃ e rest, events.reverse = e :: rest ∧ Cuttable 19 e.createdAt ∧ left / 2 < tokensOf (lineOf e)

/-- There are ten events at most, and all of them can be listed. -/
structure AllListed (events : List LedgerEvent) (left : Nat) : Prop where
  few : events.length ≤ 10
  cuttable : ∀ e ∈ events, Cuttable 19 e.createdAt
  lines : (events.reverse.map fun e => tokensOf (lineOf e)).sum ≤ left / 2
  joined : tokensOf ("\n".intercalate (events.reverse.map lineOf)) ≤ left

section

variable {budget used : Nat} {candidates : List LedgerEvent} {lines : List (String × String)}

theorem seconds_isSome_iff {createdAt : String} : (seconds createdAt).isSome = true ↔ Cuttable 19 createdAt := by
  unfold seconds
  split
  · next long =>
    rw [Option.isSome_map,Option.isSome_iff_exists,firstBytes_isSome_iff]
    constructor
    · exact .inr
    · rintro (fits | between)
      · exact ⟨createdAt, "", by simp, Nat.le_antisymm fits long⟩
      · exact between
  · next short => exact iff_of_true rfl (.inl (by omega))

/-- What of an event is listed. -/
def entryOf (e : LedgerEvent) : String × String := (lineOf e, "ledger:event:" ++ e.eventId)

theorem eventLines_cons {e : LedgerEvent} {rest : List LedgerEvent} (cuttable : Cuttable 19 e.createdAt) :
    eventLines budget used (e :: rest) = if budget < used + tokensOf (lineOf e) then some []
      else (eventLines budget (used + tokensOf (lineOf e)) rest).map (entryOf e :: ·) := by
  obtain ⟨ts, here⟩ := Option.isSome_iff_exists.mp (seconds_isSome_iff.mpr cuttable)
  rw [eventLines,lineOf,here]
  simp only [Option.bind_eq_bind,Option.bind_some,Option.getD_some]
  split
  · rfl
  · cases eventLines budget (used + tokensOf (eventLine ts e.eventType)) rest with
    | none => rfl
    | some later => simp [entryOf,lineOf,here]

theorem eventLines_uncuttable {e : LedgerEvent} {rest : List LedgerEvent} (uncuttable : ¬ Cuttable 19 e.createdAt) :
    eventLines budget used (e :: rest) = none := by
  rw [← seconds_isSome_iff,Option.not_isSome_iff_eq_none] at uncuttable
  rw [eventLines,uncuttable]
  rfl

/-- What is listed is a part from the front that can be cut and fits. -/
theorem eventLines_front (listed : eventLines budget used candidates = some lines) (fits : used ≤ budget) :
    ∃ front, front <+: candidates ∧ lines = front.map entryOf ∧ (∀ e ∈ front, Cuttable 19 e.createdAt) ∧
      used + (front.map fun e => tokensOf (lineOf e)).sum ≤ budget := by
  induction candidates generalizing used lines with
  | nil =>
    cases listed
    exact ⟨[], List.prefix_rfl, rfl, by simp, by simpa using fits⟩
  | cons e rest ih =>
    by_cases cuttable : Cuttable 19 e.createdAt
    · rw [eventLines_cons cuttable] at listed
      split at listed
      · cases listed
        exact ⟨[], List.nil_prefix, rfl, by simp, by simpa using fits⟩
      · next room =>
        obtain ⟨later, inner, rfl⟩ := Option.map_eq_some_iff.mp listed
        obtain ⟨front, start, rfl, cut, sum⟩ := ih inner (Nat.le_of_not_lt room)
        refine ⟨e :: front, (List.prefix_cons_inj e).mpr start, rfl, ?_, ?_⟩
        · exact List.forall_mem_cons.mpr ⟨cuttable, cut⟩
        · rw [List.map_cons,List.sum_cons]
          omega
    · rw [eventLines_uncuttable cuttable] at listed
      cases listed

/-- All that can be cut and fits is listed. -/
theorem eventLines_all (cuttable : ∀ e ∈ candidates, Cuttable 19 e.createdAt)
    (fits : used + (candidates.map fun e => tokensOf (lineOf e)).sum ≤ budget) :
    eventLines budget used candidates = some (candidates.map entryOf) := by
  induction candidates generalizing used with
  | nil => rfl
  | cons e rest ih =>
    obtain ⟨here, later⟩ := List.forall_mem_cons.mp cuttable
    rw [List.map_cons,List.sum_cons] at fits
    rw [eventLines_cons here,if_neg (by omega),ih later (by omega)]
    rfl

end

/-- A line has a token at least: what joining adds is no more than the tokens themselves. -/
theorem joined_tokens {lines : List String} (each : ∀ line ∈ lines, 1 ≤ tokensOf line) :
    tokensOf ("\n".intercalate lines) ≤ 2 * (lines.map tokensOf).sum := by
  have size : ("\n".intercalate lines).utf8ByteSize ≤ 8 * (lines.map tokensOf).sum := by
    induction lines with
    | nil => simp
    | cons first rest ih =>
      obtain ⟨here, later⟩ := List.forall_mem_cons.mp each
      have inner := ih later
      unfold tokensOf at here
      rw [List.map_cons,List.sum_cons]
      cases rest with
      | nil =>
        rw [String.intercalate_singleton,tokensOf]
        omega
      | cons second rest =>
        rw [joined_size]
        have own : tokensOf first = first.utf8ByteSize / 4 := rfl
        omega
  unfold tokensOf at size ⊢
  omega

/-- So what is taken greedily stays within twice the budget. -/
theorem fitting_joined {budget : Nat} {lines : List String} (each : ∀ line ∈ lines, 1 ≤ tokensOf line) :
    tokensOf ("\n".intercalate (fitting tokensOf budget 0 lines)) ≤ 2 * budget := by
  have front : fitting tokensOf budget 0 lines <+: lines := fitting_prefix
  have sum : 0 + ((fitting tokensOf budget 0 lines).map tokensOf).sum ≤ budget := fitting_le (Nat.zero_le budget)
  have joined := joined_tokens fun line member => each line (front.subset member)
  omega

/-! The budget. -/

def Assembly.tokens (assembly : Assembly) : Nat := (assembly.chunks.map ContextChunk.tokenEstimate).sum

/-- What is spent and what is left make up the limit. -/
def Balanced (limit : Nat) (assembly : Assembly) : Prop := assembly.tokens + assembly.remaining = limit

section

variable {limit : Nat} {assembly : Assembly} {chunk : ContextChunk}

theorem tokens_spend : (assembly.spend chunk).tokens = assembly.tokens + chunk.tokenEstimate := by
  simp [Assembly.tokens,Assembly.spend]

theorem remaining_spend : (assembly.spend chunk).remaining = assembly.remaining - chunk.tokenEstimate := rfl

theorem spend_balanced (balanced : Balanced limit assembly) (fits : chunk.tokenEstimate ≤ assembly.remaining) :
    Balanced limit (assembly.spend chunk) := by
  unfold Balanced at balanced ⊢
  rw [tokens_spend,remaining_spend]
  omega

theorem spendIfFits_balanced (balanced : Balanced limit assembly) : Balanced limit (assembly.spendIfFits chunk) := by
  unfold Assembly.spendIfFits
  split
  · next fits => exact spend_balanced balanced fits
  · exact balanced

theorem withPrincipal_balanced (principalId : String) (tokenBudget : Nat) :
    Balanced (max tokenBudget (principalChunk principalId).tokenEstimate) (withPrincipal principalId tokenBudget) := by
  unfold Balanced withPrincipal
  rw [tokens_spend,remaining_spend]
  simp only [Assembly.tokens,List.map_nil,List.sum_nil]
  omega

theorem withSkills_balanced (text : FloatText) (stores : MemoryStores) (balanced : Balanced limit assembly) :
    Balanced limit (withSkills text stores assembly) := by
  unfold withSkills
  split
  · exact balanced
  · exact balanced
  · exact spendIfFits_balanced balanced

theorem semanticLine_tokens (text : FloatText) (found : SemanticMatch) : 1 ≤ tokensOf (semanticLine text found) := by
  have opening : "[sim=".utf8ByteSize = 5 := by decide
  simp only [tokensOf,semanticLine,String.utf8ByteSize_append,opening]
  omega

theorem withSemantic_balanced (text : FloatText) (stores : MemoryStores) (queryEmbedding : Option (List UInt32))
    (balanced : Balanced limit assembly) : Balanced limit (withSemantic text stores queryEmbedding assembly) := by
  unfold withSemantic
  split
  · split
    · exact balanced
    · next found _ =>
      split
      · exact balanced
      · next some_ =>
        apply spend_balanced balanced
        have each : ∀ line ∈ found.map (semanticLine text), 1 ≤ tokensOf line := by
          rw [List.forall_mem_map]
          exact fun one _ => semanticLine_tokens text one
        have few : tokensOf ("\n".intercalate (fitting tokensOf (assembly.remaining / 3) 0 (found.map (semanticLine text)))) ≤
            2 * (assembly.remaining / 3) := fitting_joined each
        simp only [ContextChunk.newWithLineage]
        omega
  · split
    · exact spendIfFits_balanced balanced
    · exact balanced

/-- Chunks are added and the remainder gets less; none of the new chunks is one of events. -/
structure Grows (before after : Assembly) : Prop where
  remaining : after.remaining ≤ before.remaining
  tokens : before.tokens ≤ after.tokens
  chunks : ∀ chunk ∈ after.chunks, chunk ∈ before.chunks ∨ chunk.label ≠ "recent_events"
  kept : ∀ chunk ∈ before.chunks, chunk ∈ after.chunks

theorem Grows.refl (assembly : Assembly) : Grows assembly assembly := ⟨le_rfl, le_rfl, fun _ => .inl, fun _ => id⟩

theorem Grows.trans {first second third : Assembly} (start : Grows first second) (more : Grows second third) :
    Grows first third where
  remaining := more.remaining.trans start.remaining
  tokens := start.tokens.trans more.tokens
  chunks chunk member := (more.chunks chunk member).elim (start.chunks chunk) .inr
  kept chunk member := more.kept chunk (start.kept chunk member)

theorem spend_grows (label : chunk.label ≠ "recent_events") : Grows assembly (assembly.spend chunk) where
  remaining := Nat.sub_le _ _
  tokens := by
    rw [tokens_spend]
    exact Nat.le_add_right _ _
  chunks other member := by
    rcases List.mem_append.mp member with before | new
    · exact .inl before
    · rw [List.mem_singleton.mp new]
      exact .inr label
  kept other member := List.mem_append_left _ member

theorem spendIfFits_grows (label : chunk.label ≠ "recent_events") : Grows assembly (assembly.spendIfFits chunk) := by
  unfold Assembly.spendIfFits
  split
  · exact spend_grows label
  · exact .refl assembly

theorem withSkills_grows (text : FloatText) (stores : MemoryStores) : Grows assembly (withSkills text stores assembly) := by
  unfold withSkills
  split
  · exact .refl assembly
  · exact .refl assembly
  · exact spendIfFits_grows (by simp [ContextChunk.newWithLineage])

theorem withSemantic_grows (text : FloatText) (stores : MemoryStores) (queryEmbedding : Option (List UInt32)) :
    Grows assembly (withSemantic text stores queryEmbedding assembly) := by
  unfold withSemantic
  split
  · split
    · exact .refl assembly
    · split
      · exact .refl assembly
      · exact spend_grows (by simp [ContextChunk.newWithLineage])
  · split
    · exact spendIfFits_grows (by simp [ContextChunk.newWithLineage])
    · exact .refl assembly

section

variable (text : FloatText) (principalId : String) (tokenBudget : Nat) (stores : MemoryStores)
  (queryEmbedding : Option (List UInt32))

theorem beforeEvents_balanced : Balanced (max tokenBudget (principalChunk principalId).tokenEstimate)
    (beforeEvents text principalId tokenBudget stores queryEmbedding) :=
  withSemantic_balanced text stores queryEmbedding (withSkills_balanced text stores
    (withPrincipal_balanced principalId tokenBudget))

theorem beforeEvents_grows : Grows ⟨[], tokenBudget⟩ (beforeEvents text principalId tokenBudget stores queryEmbedding) :=
  ((spend_grows (by simp [principalChunk,ContextChunk.newWithLineage])).trans (withSkills_grows text stores)).trans
    (withSemantic_grows text stores queryEmbedding)

end

/-- A snapshot that is there can be cut, and then the rest goes on. -/
theorem withProjection_some {stores : MemoryStores} {all : Assembly} (built : withProjection stores assembly = some all) :
    Grows assembly all ∧ (∀ limit, Balanced limit assembly → Balanced limit all) ∧
      ∀ snap, stores.latest = some (some snap) → Cuttable 19 snap.createdAt := by
  unfold withProjection at built
  split at built
  · next none_ =>
    cases built
    exact ⟨.refl assembly, fun _ => id, fun snap here => by simp [none_] at here⟩
  · next none_ =>
    cases built
    exact ⟨.refl assembly, fun _ => id, fun snap here => by simp [none_] at here⟩
  · next snap here =>
    obtain ⟨ts, cut, last⟩ := Option.bind_eq_some_iff.mp built
    obtain rfl := Option.some.inj last
    refine ⟨spendIfFits_grows (by simp [ContextChunk.newWithLineage]), fun _ => spendIfFits_balanced, ?_⟩
    rintro other same
    rw [here] at same
    cases same
    exact seconds_isSome_iff.mp (Option.isSome_iff_exists.mpr ⟨ts, cut⟩)

theorem withProjection_isSome {stores : MemoryStores} (assembly : Assembly)
    (cuttable : ∀ snap, stores.latest = some (some snap) → Cuttable 19 snap.createdAt) :
    ∃ all, withProjection stores assembly = some all := by
  unfold withProjection
  split
  · exact ⟨_, rfl⟩
  · exact ⟨_, rfl⟩
  · next snap here =>
    obtain ⟨ts, cut⟩ := Option.isSome_iff_exists.mp (seconds_isSome_iff.mpr (cuttable snap here))
    rw [cut]
    exact ⟨_, rfl⟩

/-- The chunk that lists these events. -/
def listing (front : List LedgerEvent) : ContextChunk :=
  .newWithLineage 4 "recent_events" ("\n".intercalate (front.map lineOf)) (front.map fun e => "ledger:event:" ++ e.eventId)

theorem withEvents_of_lines {ε : Type} {events front : List LedgerEvent} (some_ : front ≠ [])
    (lines : eventLines (assembly.remaining / 2) 0 (events.reverse.take 10) = some (front.map entryOf)) :
    withEvents (.ok events : Except ε (List LedgerEvent)) assembly = some (assembly.spend (listing front)) := by
  obtain ⟨e, rest, rfl⟩ := List.exists_cons_of_ne_nil some_
  simp only [withEvents,lines,Option.bind_eq_bind,Option.bind_some,List.map_cons]
  simp [listing,entryOf,Function.comp_def]

theorem withEvents_of_none {ε : Type} {events : List LedgerEvent}
    (lines : eventLines (assembly.remaining / 2) 0 (events.reverse.take 10) = some []) :
    withEvents (.ok events : Except ε (List LedgerEvent)) assembly = some assembly := by
  simp [withEvents,lines]

/-- Nothing is listed of no events, or where the oldest looked at does not fit. -/
theorem eventLines_nil_iff {events : List LedgerEvent} {left : Nat} :
    eventLines (left / 2) 0 (events.reverse.take 10) = some [] ↔ events = [] ∨ NoneListed events left := by
  cases asc : events.reverse with
  | nil =>
    rw [List.reverse_eq_nil_iff] at asc
    simp [asc,eventLines]
  | cons e rest =>
    have some_ : events ≠ [] := by
      rintro rfl
      cases asc
    rw [List.take_succ_cons,NoneListed,asc]
    by_cases cuttable : Cuttable 19 e.createdAt
    · rw [eventLines_cons cuttable]
      split
      · next long =>
        rw [Nat.zero_add] at long
        exact iff_of_true rfl (.inr ⟨e, rest, rfl, cuttable, long⟩)
      · next room =>
        rw [Nat.zero_add] at room
        refine iff_of_false (by simp) ?_
        rintro (none_ | ⟨e', rest', same, -, long⟩)
        · exact some_ none_
        · cases same
          exact room long
    · rw [eventLines_uncuttable cuttable]
      refine iff_of_false (by simp) ?_
      rintro (none_ | ⟨e', rest', same, cut, -⟩)
      · exact some_ none_
      · cases same
        exact cuttable cut

end

section

variable {older front back : List EventRow}

/-- A part of the rows in rising order has all that is newer than any of it just if nothing comes behind it. -/
theorem newest_iff (rising : (older ++ (front ++ back)).Pairwise fun a b => a.seqNum < b.seqNum)
    (distinct : ((older ++ (front ++ back)).map EventRow.eventId).Nodup) :
    (∀ old ∈ older ++ (front ++ back), ∀ new ∈ older ++ (front ++ back), old.seqNum < new.seqNum →
      old.eventId ∈ front.map EventRow.eventId → new.eventId ∈ front.map EventRow.eventId) ↔ front = [] ∨ back = [] := by
  obtain ⟨-, parts, before⟩ := List.pairwise_append.mp rising
  obtain ⟨-, -, between⟩ := List.pairwise_append.mp parts
  constructor
  · intro closed
    by_contra! both
    obtain ⟨old, first⟩ := List.exists_mem_of_ne_nil front both.1
    obtain ⟨new, last⟩ := List.exists_mem_of_ne_nil back both.2
    have listed := closed old (by simp [first]) new (by simp [last]) (between old first new last)
      (List.mem_map_of_mem first)
    rw [List.map_append,List.map_append] at distinct
    obtain ⟨-, ids, -⟩ := List.nodup_append.mp distinct
    exact (List.nodup_append.mp ids).2.2 new.eventId listed new.eventId (List.mem_map_of_mem last) rfl
  · rintro (rfl | rfl)
    · simp
    · rw [List.append_nil] at *
      intro old inside new inside' newer listed
      obtain ⟨row, member, same⟩ := List.mem_map.mp listed
      obtain rfl : row = old := (List.inj_on_of_nodup_map distinct) (List.mem_append_right _ member) inside same
      rcases List.mem_append.mp inside' with earlier | here
      · have less := before new earlier row member
        omega
      · exact List.mem_map_of_mem here

end

section

variable {host : Host} {scan : ScanOrder} {writes : List Write} {p : String}

/-- The rows of one principal rise from the first to the last. -/
theorem rows_rise (one : ∀ row ∈ runWrites host [] writes, row.principalId = p) :
    (runWrites host [] writes).Pairwise fun a b => a.seqNum < b.seqNum := by
  have rising := rising_of_one_principal (runWrites_chained host writes) one .listGlobalEvents 9223372036854775808
  have every : (runWrites host [] writes).filter EventQuery.listGlobalEvents.selects = runWrites host [] writes :=
    List.filter_eq_self.mpr (fun _ _ => rfl)
  rw [every] at rising
  rw [List.pairwise_iff_getElem]
  intro i j hi hj before
  have split : runWrites host [] writes = (runWrites host [] writes).take j ++
      (runWrites host [] writes)[j] :: (runWrites host [] writes).drop (j + 1) := by
    rw [List.getElem_cons_drop,List.take_append_drop]
  exact rising _ _ _ split (fun small => absurd small (by decide)) _ (List.mem_take_iff_getElem.mpr ⟨i, by omega, rfl⟩)

/-- The ledger looks at its latest twenty rows, the last one first. -/
theorem rows_latest (one : ∀ row ∈ runWrites host [] writes, row.principalId = p) :
    EventQuery.listGlobalEvents.rows scan (runWrites host [] writes) 20 = (runWrites host [] writes).reverse.take 20 := by
  have every : (runWrites host [] writes).filter EventQuery.listGlobalEvents.selects = runWrites host [] writes :=
    List.filter_eq_self.mpr (fun _ _ => rfl)
  have newest := (newest_first_iff host writes .listGlobalEvents 20).mpr
    (rising_of_one_principal (runWrites_chained host writes) one .listGlobalEvents 20) scan
  rw [newest,EventQuery.newest,every]
  rfl

theorem ids_of_run (one : ∀ row ∈ runWrites host [] writes, row.principalId = p) {events : List LedgerEvent}
    (listed : EventQuery.listGlobalEvents.run host scan (runWrites host [] writes) 20 = .ok events) :
    events.map LedgerEvent.eventId = ((runWrites host [] writes).reverse.take 20).map EventRow.eventId := by
  rw [EventQuery.run,rows_latest one,mapAll_ok_iff] at listed
  generalize (runWrites host [] writes).reverse.take 20 = rows at listed
  induction listed with
  | nil => rfl
  | cons read _ ih => rw [List.map_cons,List.map_cons,ih,congrArg LedgerEvent.eventId (rowToEvent_ok_iff.mp read).columns]

/-- A listing of the first of the latest events, oldest first, has the newer ones just if it has all. -/
theorem listing_latest_iff (one : ∀ row ∈ runWrites host [] writes, row.principalId = p) {events front back : List LedgerEvent}
    (listed : EventQuery.listGlobalEvents.run host scan (runWrites host [] writes) 20 = .ok events)
    (parts : events.reverse = front ++ back) (some_ : front ≠ []) :
    ListsLatest (runWrites host [] writes) (listing front) ↔ front.length ≤ 10 ∧ back = [] := by
  have distinct := (runWrites_chained host writes).distinct
  have rising := rows_rise one
  have ids := congrArg List.reverse (ids_of_run one listed)
  rw [← List.map_reverse,← List.map_reverse,parts,List.map_append,List.reverse_take,List.reverse_reverse] at ids
  obtain ⟨first, rest, cut, firstIds, restIds⟩ := List.map_eq_append_iff.mp ids.symm
  have table := List.take_append_drop ((runWrites host [] writes).reverse.length - 20) (runWrites host [] writes)
  rw [cut] at table
  have lists : ∀ row, Lists (listing front) row ↔ row.eventId ∈ first.map EventRow.eventId := by
    intro row
    rw [firstIds,Lists,listing,ContextChunk.newWithLineage]
    simp [List.mem_map]
  have nonempty : first ≠ [] := by
    rintro rfl
    exact some_ (List.map_eq_nil_iff.mp firstIds.symm)
  have closed := newest_iff (table.symm ▸ rising) (table.symm ▸ distinct)
  rw [table] at closed
  have restEmpty : rest = [] ↔ back = [] := by
    rw [← List.map_eq_nil_iff (f := EventRow.eventId),restIds,List.map_eq_nil_iff]
  constructor
  · rintro ⟨few, newest⟩
    simp only [lists] at newest
    refine ⟨by simpa [listing,ContextChunk.newWithLineage] using few, ?_⟩
    exact restEmpty.mp ((closed.mp newest).resolve_left nonempty)
  · rintro ⟨few, empty⟩
    refine ⟨by simpa [listing,ContextChunk.newWithLineage] using few, ?_⟩
    simp only [lists]
    exact closed.mpr (.inr (restEmpty.mpr empty))

theorem withEvents_some {ε : Type} {events : List LedgerEvent} {assembly after : Assembly}
    (here : withEvents (.ok events : Except ε (List LedgerEvent)) assembly = some after) :
    (after = assembly ∧ (events = [] ∨ NoneListed events assembly.remaining)) ∨
    ∃ front back, events.reverse = front ++ back ∧ front ≠ [] ∧ (∀ e ∈ front, Cuttable 19 e.createdAt) ∧
      (front.map fun e => tokensOf (lineOf e)).sum ≤ assembly.remaining / 2 ∧ after = assembly.spend (listing front) := by
  cases lines : eventLines (assembly.remaining / 2) 0 (events.reverse.take 10) with
  | none => simp [withEvents,lines] at here
  | some taken =>
    obtain ⟨front, start, rfl, cut, sum⟩ := eventLines_front lines (Nat.zero_le _)
    rw [Nat.zero_add] at sum
    by_cases empty : front = []
    · subst empty
      rw [withEvents_of_none lines] at here
      exact .inl ⟨(Option.some.inj here).symm, eventLines_nil_iff.mp lines⟩
    · rw [withEvents_of_lines empty lines] at here
      obtain ⟨back, parts⟩ := start.trans (List.take_prefix 10 events.reverse)
      exact .inr ⟨front, back, parts.symm, empty, cut, sum, (Option.some.inj here).symm⟩

theorem withEvents_all {ε : Type} {events : List LedgerEvent} {assembly : Assembly} (some_ : events ≠ [])
    (all : AllListed events assembly.remaining) :
    withEvents (.ok events : Except ε (List LedgerEvent)) assembly = some (assembly.spend (listing events.reverse)) := by
  have nonempty : events.reverse ≠ [] := by simpa using some_
  have ten : events.reverse.take 10 = events.reverse := List.take_of_length_le (by simpa using all.few)
  apply withEvents_of_lines nonempty
  rw [ten]
  apply eventLines_all
  · exact fun e member => all.cuttable e (List.mem_reverse.mp member)
  · rw [Nat.zero_add]
    exact all.lines

theorem finish_assembled_iff {principalId : String} {tokenBudget : Nat} {table : List EventRow} {all : Assembly}
    (less : all.remaining ≤ tokenBudget) : Assembled principalId tokenBudget table (finish tokenBudget all) ↔
      all.tokens ≤ max tokenBudget (principalChunk principalId).tokenEstimate ∧
        ∀ chunk ∈ all.chunks, chunk.label = "recent_events" → ListsLatest table chunk := by
  have perm : (finish tokenBudget all).chunks.Perm all.chunks := List.mergeSort_perm _ _
  have sum : ((finish tokenBudget all).chunks.map ContextChunk.tokenEstimate).sum = all.tokens := (perm.map _).sum_eq
  constructor
  · rintro ⟨tokens, -, latest⟩
    rw [sum] at tokens
    exact ⟨tokens, fun chunk member => latest chunk (perm.mem_iff.mpr member)⟩
  · rintro ⟨tokens, latest⟩
    refine ⟨by rwa [sum], ?_, fun chunk member => latest chunk (perm.mem_iff.mp member)⟩
    simp only [finish]
    omega

theorem allListed_nil (left : Nat) : AllListed [] left where
  few := Nat.zero_le _
  cuttable _ none_ := absurd none_ List.not_mem_nil
  lines := Nat.zero_le _
  joined := Nat.zero_le _

section

variable (text : FloatText) (principalId query : String) (tokenBudget : Nat) (stores : MemoryStores)
  (queryEmbedding : Option (List UInt32))

/-- What the events layer has to come to: the snapshot is cut and the budget kept whatever is behind it. -/
theorem finish_of_events {table : List EventRow} {events : Assembly}
    (balanced : Balanced (max tokenBudget (principalChunk principalId).tokenEstimate) events)
    (less : events.remaining ≤ tokenBudget)
    (latest : ∀ chunk ∈ events.chunks, chunk.label = "recent_events" → ListsLatest table chunk)
    (cuttable : ∀ snap, stores.latest = some (some snap) → Cuttable 19 snap.createdAt) :
    ∃ all, withProjection stores events = some all ∧ Assembled principalId tokenBudget table (finish tokenBudget all) := by
  obtain ⟨all, here⟩ := withProjection_isSome events cuttable
  obtain ⟨grows, keeps, -⟩ := withProjection_some here
  refine ⟨all, here, (finish_assembled_iff (grows.remaining.trans less)).mpr ⟨?_, ?_⟩⟩
  · have kept := keeps _ balanced
    unfold Balanced at kept
    omega
  · intro chunk member label
    exact latest chunk ((grows.chunks chunk member).resolve_right fun other => other label) label

/-- The context can be built, keeps to its budget and lists the latest events. -/
def Builds (text : FloatText) (principalId query : String) (tokenBudget : Nat) (host : Host) (scan : ScanOrder)
    (writes : List Write) (stores : MemoryStores) (queryEmbedding : Option (List UInt32)) : Prop :=
  ∃ built, buildWithEmbedding text principalId query tokenBudget
    (EventQuery.listGlobalEvents.run host scan (runWrites host [] writes) 20) stores queryEmbedding = some built ∧
    Assembled principalId tokenBudget (runWrites host [] writes) built

theorem listable_of_builds (one : ∀ row ∈ runWrites host [] writes, row.principalId = p)
    (kept : Builds text principalId query tokenBudget host scan writes stores queryEmbedding) :
    (∀ snap, stores.latest = some (some snap) → Cuttable 19 snap.createdAt) ∧
    ∀ events, EventQuery.listGlobalEvents.run host scan (runWrites host [] writes) 20 = .ok events →
      NoneListed events (beforeEvents text principalId tokenBudget stores queryEmbedding).remaining ∨
      AllListed events (beforeEvents text principalId tokenBudget stores queryEmbedding).remaining := by
  have balanced := beforeEvents_balanced text principalId tokenBudget stores queryEmbedding
  have grows := beforeEvents_grows text principalId tokenBudget stores queryEmbedding
  obtain ⟨built, made, assembled⟩ := kept
  unfold buildWithEmbedding at made
  generalize beforeEvents text principalId tokenBudget stores queryEmbedding = before at balanced grows made ⊢
  obtain ⟨after, here, made⟩ := Option.bind_eq_some_iff.mp made
  obtain ⟨all, last, made⟩ := Option.bind_eq_some_iff.mp made
  obtain rfl := Option.some.inj made
  obtain ⟨more, -, cuttable⟩ := withProjection_some last
  refine ⟨cuttable, fun events listed => ?_⟩
  rw [listed] at here
  rcases withEvents_some here with ⟨rfl, rfl | long⟩ | ⟨front, back, parts, some_, cut, sum, rfl⟩
  · exact .inr (allListed_nil _)
  · exact .inl long
  · have less : all.remaining ≤ tokenBudget :=
      more.remaining.trans ((Nat.sub_le _ _).trans grows.remaining)
    obtain ⟨tokens, latest⟩ := (finish_assembled_iff less).mp assembled
    have inside : listing front ∈ all.chunks := more.kept _ (List.mem_append_right _ List.mem_cons_self)
    obtain ⟨few, rfl⟩ := (listing_latest_iff one listed parts some_).mp (latest _ inside rfl)
    rw [List.append_nil] at parts
    have within : tokensOf ("\n".intercalate (front.map lineOf)) ≤ before.remaining := by
      have spent := more.tokens
      rw [tokens_spend] at spent
      unfold Balanced at balanced
      have same : (listing front).tokenEstimate = tokensOf ("\n".intercalate (front.map lineOf)) := rfl
      omega
    refine .inr ⟨?_, ?_, ?_, ?_⟩
    · rw [← List.length_reverse,parts]
      exact few
    · exact fun e member => cut e (parts ▸ List.mem_reverse.mpr member)
    · rw [parts]
      exact sum
    · rw [parts]
      exact within

theorem builds_of_listable (one : ∀ row ∈ runWrites host [] writes, row.principalId = p)
    (cuttable : ∀ snap, stores.latest = some (some snap) → Cuttable 19 snap.createdAt)
    (listable : ∀ events, EventQuery.listGlobalEvents.run host scan (runWrites host [] writes) 20 = .ok events →
      NoneListed events (beforeEvents text principalId tokenBudget stores queryEmbedding).remaining ∨
      AllListed events (beforeEvents text principalId tokenBudget stores queryEmbedding).remaining) :
    Builds text principalId query tokenBudget host scan writes stores queryEmbedding := by
  have balanced := beforeEvents_balanced text principalId tokenBudget stores queryEmbedding
  have grows := beforeEvents_grows text principalId tokenBudget stores queryEmbedding
  unfold Builds buildWithEmbedding
  generalize beforeEvents text principalId tokenBudget stores queryEmbedding = before at balanced grows listable ⊢
  have plain : ∀ chunk ∈ before.chunks, chunk.label ≠ "recent_events" := by
    intro chunk member
    exact (grows.chunks chunk member).resolve_left List.not_mem_nil
  have ends : ∃ after, withEvents (EventQuery.listGlobalEvents.run host scan (runWrites host [] writes) 20) before =
      some after ∧ Balanced (max tokenBudget (principalChunk principalId).tokenEstimate) after ∧
      after.remaining ≤ tokenBudget ∧
      ∀ chunk ∈ after.chunks, chunk.label = "recent_events" → ListsLatest (runWrites host [] writes) chunk := by
    have unchanged : before.remaining ≤ tokenBudget ∧ ∀ chunk ∈ before.chunks, chunk.label = "recent_events" →
        ListsLatest (runWrites host [] writes) chunk :=
      ⟨grows.remaining, fun chunk member label => absurd label (plain chunk member)⟩
    cases listed : EventQuery.listGlobalEvents.run host scan (runWrites host [] writes) 20 with
    | error e => exact ⟨before, rfl, balanced, unchanged⟩
    | ok events =>
      by_cases empty : events = [] ∨ NoneListed events before.remaining
      · exact ⟨before, withEvents_of_none (eventLines_nil_iff.mpr empty), balanced, unchanged⟩
      · obtain ⟨some_, short⟩ := not_or.mp empty
        have all := (listable events listed).resolve_left short
        refine ⟨_, withEvents_all some_ all, spend_balanced balanced all.joined,
          (Nat.sub_le _ _).trans grows.remaining, ?_⟩
        intro chunk member label
        rcases List.mem_append.mp member with old | new
        · exact absurd label (plain chunk old)
        · rw [List.mem_singleton.mp new]
          exact (listing_latest_iff one listed (List.append_nil _).symm (by simpa using some_)).mpr
            ⟨by simpa using all.few, rfl⟩
  obtain ⟨after, here, kept, less, latest⟩ := ends
  obtain ⟨all, last, assembled⟩ := finish_of_events principalId tokenBudget stores kept less latest cuttable
  refine ⟨finish tokenBudget all, ?_, assembled⟩
  rw [here]
  simp [last]

theorem build_assembled_iff (one : ∀ row ∈ runWrites host [] writes, row.principalId = p) :
    Builds text principalId query tokenBudget host scan writes stores queryEmbedding ↔
    (∀ snap, stores.latest = some (some snap) → Cuttable 19 snap.createdAt) ∧
    ∀ events, EventQuery.listGlobalEvents.run host scan (runWrites host [] writes) 20 = .ok events →
      NoneListed events (beforeEvents text principalId tokenBudget stores queryEmbedding).remaining ∨
      AllListed events (beforeEvents text principalId tokenBudget stores queryEmbedding).remaining := by
  constructor
  · exact listable_of_builds text principalId query tokenBudget stores queryEmbedding one
  · rintro ⟨cuttable, listable⟩
    exact builds_of_listable text principalId query tokenBudget stores queryEmbedding one cuttable listable

end

end

/-! A ledger of notes. -/

/-- The event of a note. -/
def noteEvent (eventId : String) : LedgerEvent :=
  ⟨eventId, "alice", "default", none, "note", .obj [], none, "2026-01-01T00:00:00Z", none⟩

def notesOf (ids : List String) : List Write := ids.map fun eventId => noteWrite eventId "alice"

/-- The row is that of one of the notes. -/
def NoteRow (host : Host) (row : EventRow) : Prop :=
  ∃ seqNum prevHash, row = ((noteEvent row.eventId).prepared host).row seqNum prevHash

theorem runWrites_notes (host : Host) {ids : List String} (distinct : ids.Nodup) (room : ids.length ≤ maxRows) :
    (runWrites host [] (notesOf ids)).map EventRow.eventId = ids ∧ ∀ row ∈ runWrites host [] (notesOf ids), NoteRow host row := by
  induction ids using List.reverseRecOn with
  | nil => exact ⟨rfl, fun row none_ => absurd none_ List.not_mem_nil⟩
  | append_singleton ids eventId ih =>
    obtain ⟨front, -, apart⟩ := List.nodup_append.mp distinct
    rw [List.length_append,List.length_singleton] at room
    obtain ⟨names, each⟩ := ih front (by omega)
    have fresh : ∀ row ∈ runWrites host [] (notesOf ids), row.eventId ≠ ((noteEvent eventId).prepared host).eventId := by
      intro row member same
      have inside : row.eventId ∈ ids := names ▸ List.mem_map_of_mem member
      exact apart row.eventId inside eventId (List.mem_singleton_self _) same
    have size : (runWrites host [] (notesOf ids)).length < maxRows := by
      rw [← List.length_map (f := EventRow.eventId),names]
      omega
    obtain ⟨seqNum, prevHash, appended⟩ := append_fresh .reject (runWrites_chained host (notesOf ids)) fresh size
    have rows : runWrites host [] (notesOf (ids ++ [eventId])) =
        runWrites host [] (notesOf ids) ++ [((noteEvent eventId).prepared host).row seqNum prevHash] := by
      rw [runWrites,notesOf,List.map_append,List.foldl_append]
      simp only [List.map_cons,List.map_nil,List.foldl_cons,List.foldl_nil]
      rw [← runWrites,← notesOf,noteWrite,Write.apply,Write.exec,Ledger.appendEventWithParent]
      rw [show (⟨eventId, "alice", "default", none, "note", .obj [], none, "2026-01-01T00:00:00Z", none⟩ : LedgerEvent) =
        noteEvent eventId from rfl,appended]
      rfl
    rw [rows]
    refine ⟨by rw [List.map_append,names]; rfl, ?_⟩
    intro row member
    rcases List.mem_append.mp member with old | new
    · exact each row old
    · rw [List.mem_singleton.mp new]
      exact ⟨seqNum, prevHash, rfl⟩

theorem rowToEvent_note {row : EventRow} (note : NoteRow sampleHost row) :
    rowToEvent sampleHost row = .ok (noteEvent row.eventId) := by
  obtain ⟨seqNum, prevHash, same⟩ := note
  rw [rowToEvent_ok_iff]
  have payload : row.payloadJson = sampleHost.toText (.obj []) := by rw [same]; rfl
  have signature : row.signatureHex = none := by rw [same]; rfl
  refine ⟨?_, by rw [signature]; rfl, ?_⟩
  · rw [payload]
    exact sampleHost_readsBack (.obj []) (by decide)
  · rw [same]
    rfl

theorem notes_of_alice {ids : List String} (distinct : ids.Nodup) (room : ids.length ≤ maxRows) :
    ∀ row ∈ runWrites sampleHost [] (notesOf ids), row.principalId = "alice" := by
  intro row member
  obtain ⟨seqNum, prevHash, same⟩ := (runWrites_notes sampleHost distinct room).2 row member
  rw [same]
  rfl

/-- The ledger of notes lists its latest twenty. -/
theorem run_notes (scan : ScanOrder) {ids : List String} (distinct : ids.Nodup) (room : ids.length ≤ maxRows) :
    EventQuery.listGlobalEvents.run sampleHost scan (runWrites sampleHost [] (notesOf ids)) 20 =
      .ok ((ids.reverse.take 20).map noteEvent) := by
  obtain ⟨names, each⟩ := runWrites_notes sampleHost distinct room
  rw [EventQuery.run,rows_latest (notes_of_alice distinct room)]
  have read : ∀ row ∈ (runWrites sampleHost [] (notesOf ids)).reverse.take 20,
      rowToEvent sampleHost row = .ok (noteEvent row.eventId) := by
    intro row member
    exact rowToEvent_note (each row (List.mem_reverse.mp (List.mem_of_mem_take member)))
  rw [mapAll_ok_of read]
  conv => rhs; rw [← names,← List.map_reverse,← List.map_take,List.map_map]
  rfl

theorem noteEvent_tokens (eventId : String) : tokensOf (lineOf (noteEvent eventId)) = 6 := by
  have one : tokensOf (lineOf (noteEvent "a")) = 6 := by decide +kernel
  exact one

theorem noteEvent_cuttable (eventId : String) : Cuttable 19 (noteEvent eventId).createdAt := by
  have one : (seconds (noteEvent "a").createdAt).isSome = true := by decide +kernel
  exact seconds_isSome_iff.mp one

def sampleText : FloatText := ⟨fun _ => "0.90", fun _ => "0.900"⟩

def noMemories : MemoryStores := ⟨some [], fun _ => some [], 0, some none⟩

/-- So many tokens beside the identity. -/
def roomyBudget (extra : Nat) : Nat := (principalChunk "alice").tokenEstimate + extra

theorem roomy_remaining (extra : Nat) :
    (beforeEvents sampleText "alice" (roomyBudget extra) noMemories none).remaining = extra := by
  have semantic : ∀ assembly, withSemantic sampleText noMemories none assembly = assembly := by
    simp [withSemantic,noMemories]
  have skills : ∀ assembly, withSkills sampleText noMemories assembly = assembly := fun _ => rfl
  rw [beforeEvents,semantic,skills,withPrincipal,remaining_spend,roomyBudget]
  exact Nat.add_sub_cancel_left _ _

def tableOrder : ScanOrder := ⟨id, fun rows => List.Perm.refl rows⟩

def twoIds : List String := ["a", "b"]

theorem two_notes_listed : Builds sampleText "alice" "hello" (roomyBudget 4000) sampleHost tableOrder (notesOf twoIds) noMemories none := by
  have distinct : twoIds.Nodup := by decide
  have room : twoIds.length ≤ maxRows := by decide
  apply (build_assembled_iff sampleText "alice" "hello" (roomyBudget 4000) noMemories none (notes_of_alice distinct room)).mpr
  constructor
  · intro snap here
    cases here
  · intro events listed
    rw [run_notes tableOrder distinct room] at listed
    cases listed
    rw [roomy_remaining]
    refine .inr ⟨by decide, ?_, ?_, ?_⟩
    · rw [List.forall_mem_map]
      exact fun eventId _ => noteEvent_cuttable eventId
    · simp [twoIds,noteEvent_tokens]
    · have each : ∀ line ∈ ((twoIds.reverse.take 20).map noteEvent).reverse.map lineOf, 1 ≤ tokensOf line := by
        rw [← List.map_reverse,List.map_map,List.forall_mem_map]
        intro eventId _
        rw [Function.comp_apply,noteEvent_tokens]
        decide
      have sum : ((((twoIds.reverse.take 20).map noteEvent).reverse.map lineOf).map tokensOf).sum = 12 := by
        simp [twoIds,noteEvent_tokens]
      have joined := joined_tokens each
      omega

def elevenIds : List String := ["a", "b", "c", "d", "e", "f", "g", "h", "i", "j", "k"]

/-- The ten oldest are listed, and the newest is not. -/
theorem newest_note_missing :
    ¬ Builds sampleText "alice" "hello" (roomyBudget 4000) sampleHost tableOrder (notesOf elevenIds) noMemories none := by
  have distinct : elevenIds.Nodup := by decide
  have room : elevenIds.length ≤ maxRows := by decide
  intro builds
  have listable := (listable_of_builds sampleText "alice" "hello" (roomyBudget 4000) noMemories none
    (notes_of_alice distinct room) builds).2 _ (run_notes tableOrder distinct room)
  rw [roomy_remaining] at listable
  rcases listable with ⟨e, rest, parts, -, long⟩ | all
  · have inside : e ∈ ((elevenIds.reverse.take 20).map noteEvent).reverse := parts ▸ List.mem_cons_self
    obtain ⟨eventId, -, rfl⟩ := List.mem_map.mp (List.mem_reverse.mp inside)
    rw [noteEvent_tokens] at long
    omega
  · have few := all.few
    rw [List.length_map] at few
    exact absurd few (by decide)

end Zaion.Agent
