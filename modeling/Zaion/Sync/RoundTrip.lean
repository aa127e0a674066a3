import Zaion.Sync.Bundle
import Zaion.Sample

/-! Export, import and exchange of bundles between ledgers that only writes have
touched. An event is stored by the row written for it; a portable event is one the
strict decoder reads back. -/
namespace Zaion.Sync

open Lib Ledger

/-- The row was written for this event. -/
def Stores (host : Host) (row : EventRow) (event : LedgerEvent) : Prop :=
  row = (event.prepared host).row row.seqNum row.prevHash

/-- Every row was written for some event. -/
def Written (host : Host) (rows : List EventRow) : Prop := ∀ row ∈ rows, ∃ event, Stores host row event

/-- What the decoder asks of an event, and a payload whose JSON text parses back to it. -/
structure Portable (host : Host) (event : LedgerEvent) : Prop where
  eventId : event.eventId ≠ ""
  principalId : event.principalId ≠ ""
  namespaceKey : event.namespaceKey ≠ ""
  eventType : event.eventType ≠ ""
  createdAt : event.createdAt ≠ ""
  time : (host.parseRfc3339 event.createdAt).isSome = true
  runId : event.runId ≠ some ""
  parentEventId : event.parentEventId ≠ some ""
  payload : host.ofText (host.toText event.payload) = some event.payload

theorem stores_row (host : Host) (event : LedgerEvent) (seqNum : Int) (prevHash : String) :
    Stores host ((event.prepared host).row seqNum prevHash) event := rfl

/-- Stored is what `StoredEventIdentity::matches` takes for the same event. -/
theorem stores_iff {host : Host} {row : EventRow} {event : LedgerEvent} :
    Stores host row event ↔ row.eventId = event.eventId ∧ row.matches (event.prepared host) true := by
  obtain ⟨⟩ := row
  simp only [Stores,PreparedEvent.row,EventRow.matches,LedgerEvent.prepared,EventRow.mk.injEq]
  tauto

theorem rowToEvent_readable {host : Host} {row : EventRow} {event : LedgerEvent} {payload : Json}
    (stores : Stores host row event) (readable : host.ofText row.payloadJson = some payload) :
    rowToEvent host row = .ok { event with payload := payload } := by
  rw [stores] at readable ⊢
  obtain ⟨eventId, principalId, namespaceKey, runId, eventType, written, signature, createdAt,
    parentEventId⟩ := event
  cases signature <;>
    simp_all [rowToEvent,PreparedEvent.row,LedgerEvent.prepared,Functor.map,Except.map]

theorem rowToEvent_portable {host : Host} {row : EventRow} {event : LedgerEvent}
    (stores : Stores host row event) (portable : Portable host event) :
    rowToEvent host row = .ok event :=
  rowToEvent_readable stores (by rw [stores]; exact portable.payload)

theorem decodeByte_nat (b : UInt8) : decodeByte (.nat b.toNat) = .ok b := by
  have small : b.toNat ≤ 255 := by have := b.toNat_lt; omega
  simp [decodeByte,Json.nat,Json.asU64,small]

theorem decodeSignature_bytes (bytes : List UInt8) :
    decodeSignature (.arr (bytes.map (fun b => .nat b.toNat))) = .ok bytes := by
  have each : mapAll decodeByte (bytes.map (fun b => .nat b.toNat)) = .ok bytes := by
    rw [mapAll_ok_iff,List.forall₂_map_left_iff]
    exact List.forall₂_same.mpr (fun b _ => decodeByte_nat b)
  simpa [decodeSignature,Json.asArray] using each

theorem nonEmptyStr_some {fields : List (String × Json)} {field text : String}
    (found : Json.lookup field fields = some (.str text)) (nonempty : text ≠ "") :
    nonEmptyStr fields field = some text := by
  simp [nonEmptyStr,found,Json.asStr,Option.filter,nonempty]

theorem requiredStr_ok {fields : List (String × Json)} {field text : String}
    (found : Json.lookup field fields = some (.str text)) (nonempty : text ≠ "") :
    requiredStr fields field = .ok text := by
  rw [requiredStr,nonEmptyStr_some found nonempty,required_some]

theorem nonEmptyStr_option {fields : List (String × Json)} {field : String} {text : Option String}
    (found : Json.lookup field fields = some (.ofOption .str text)) (nonempty : text ≠ some "") :
    nonEmptyStr fields field = text := by
  cases text with
  | none => simp [nonEmptyStr,found,Json.ofOption,Json.asStr]
  | some text => exact nonEmptyStr_some found (fun h => nonempty (h ▸ rfl))

theorem lookup_parent (event : LedgerEvent) :
    Json.lookup "parent_event_id" (eventFields event) = event.parentEventId.map .str := by
  unfold eventFields
  cases event.parentEventId <;> rfl

theorem nonEmptyStr_parent {event : LedgerEvent} (nonempty : event.parentEventId ≠ some "") :
    nonEmptyStr (eventFields event) "parent_event_id" = event.parentEventId := by
  have found := lookup_parent event
  rcases shape : event.parentEventId with _ | parent
  · rw [shape] at found
    simp [nonEmptyStr,found]
  · rw [shape] at found nonempty
    exact nonEmptyStr_some found (fun h => nonempty (h ▸ rfl))

/-- The decoder reads a portable event back from its serialized form. -/
theorem decodeBundleEvent_toValue {host : Host} {event : LedgerEvent} (portable : Portable host event) :
    decodeBundleEvent host event.principalId (toValue event) = .ok event := by
  have signature : Json.lookup "signature" (eventFields event) = some (.ofOption
      (fun bytes => .arr (bytes.map (fun b => .nat b.toNat))) event.signature) := rfl
  simp only [decodeBundleEvent,toValue,Json.asObject,required_some,ok_bind,
    requiredStr_ok (show Json.lookup "event_id" (eventFields event) = _ from rfl) portable.eventId,
    requiredStr_ok (show Json.lookup "principal_id" (eventFields event) = _ from rfl) portable.principalId,
    requiredStr_ok (show Json.lookup "namespace_key" (eventFields event) = _ from rfl) portable.namespaceKey,
    requiredStr_ok (show Json.lookup "event_type" (eventFields event) = _ from rfl) portable.eventType,
    requiredStr_ok (show Json.lookup "created_at" (eventFields event) = _ from rfl) portable.createdAt,
    nonEmptyStr_option (show Json.lookup "run_id" (eventFields event) = _ from rfl) portable.runId,
    nonEmptyStr_parent portable.parentEventId,signature,ensure_of portable.time,ensure_of,
    show Json.lookup "payload" (eventFields event) = some event.payload from rfl]
  rcases shape : event.signature with _ | bytes
  · simp only [Json.ofOption,← shape]
  · simp only [Json.ofOption,decodeSignature_bytes,Functor.map,Except.map,ok_bind,← shape]

theorem appends_written {host : Host} {rows rows' : List EventRow} (appends : Appends host rows rows')
    (valid : Chained host rows) (written : Written host rows) : Written host rows' := by
  induction appends with
  | refl => exact written
  | step append _ ih =>
    rcases append_cases valid append with ⟨_, _, _, _, same⟩ | ⟨fresh, room, grown⟩
    · cases same; exact ih valid written
    · cases grown
      refine ih (chained_append_row valid fresh room) ?_
      intro row member
      rcases List.mem_append.mp member with old | new
      · exact written row old
      · rw [List.mem_singleton.mp new]
        exact ⟨_, stores_row ..⟩

/-- An event that is stored already is found and skipped. -/
theorem append_stored {host : Host} {rows : List EventRow} {event : LedgerEvent} {row : EventRow}
    (distinct : (rows.map EventRow.eventId).Nodup) (member : row ∈ rows) (stores : Stores host row event) :
    appendPreparedEventInTransaction host rows (event.prepared host) .matchAll = .ok (rows, false) := by
  obtain ⟨id, same⟩ := stores_iff.mp stores
  have found : findEvent rows (event.prepared host).eventId = some row := by
    change findEvent rows event.eventId = some row
    rw [← id,findEvent_of_mem distinct member]
  simp only [appendPreparedEventInTransaction,found,ensure_of (show equivalent .matchAll row
    (event.prepared host) from same),ok_bind]

/-- An event the table does not contradict is stored after its append, and no other. -/
theorem append_agreeing {host : Host} {rows : List EventRow} {event : LedgerEvent}
    (valid : Chained host rows)
    (agree : ∀ row ∈ rows, row.eventId = event.eventId → Stores host row event)
    (room : rows.length < maxRows) :
    ∃ step, appendPreparedEventInTransaction host rows (event.prepared host) .matchAll = .ok step ∧
      step.1.length ≤ rows.length + 1 ∧ (∃ row ∈ step.1, Stores host row event) ∧
      (∀ row ∈ step.1, row ∈ rows ∨ Stores host row event) := by
  by_cases known : ∃ row ∈ rows, row.eventId = event.eventId
  · obtain ⟨row, member, id⟩ := known
    have stores := agree row member id
    exact ⟨(rows, false), append_stored valid.distinct member stores, Nat.le_succ _,
      ⟨row, member, stores⟩, fun _ old => .inl old⟩
  · have fresh : ∀ row ∈ rows, row.eventId ≠ (event.prepared host).eventId :=
      fun row member id => known ⟨row, member, id⟩
    obtain ⟨seqNum, prevHash, step⟩ := append_fresh .matchAll valid fresh room
    refine ⟨_, step, by simp, ⟨_, List.mem_append_right _ (List.mem_singleton.mpr rfl), stores_row ..⟩, ?_⟩
    intro row member
    rcases List.mem_append.mp member with old | new
    · exact .inl old
    · exact .inr (List.mem_singleton.mp new ▸ stores_row ..)

/-- Events the table does not contradict go in whole. -/
theorem insertEvents_ok {host : Host} {rows : List EventRow} {events : List LedgerEvent}
    (valid : Chained host rows) (ids : (events.map LedgerEvent.eventId).Nodup)
    (agree : ∀ event ∈ events, ∀ row ∈ rows, row.eventId = event.eventId → Stores host row event)
    (room : rows.length + events.length ≤ maxRows) :
    ∃ result, insertEventsWithIdsAtomic host rows events = .ok result ∧
      result.2.length = events.length ∧
      (∀ event ∈ events, ∃ row ∈ result.1, Stores host row event) ∧
      (∀ row ∈ result.1, row ∈ rows ∨ ∃ event ∈ events, Stores host row event) := by
  induction events generalizing rows with
  | nil => exact ⟨(rows, []), rfl, rfl, by simp, fun row member => .inl member⟩
  | cons event events ih =>
    simp only [List.map_cons,List.nodup_cons,List.mem_map,not_exists,not_and] at ids
    simp only [List.length_cons] at room
    obtain ⟨step, append, size, stored, only⟩ :=
      append_agreeing valid (agree event List.mem_cons_self) (by omega)
    have grown := appends_chained (.single append) valid
    have agree' : ∀ e ∈ events, ∀ row ∈ step.1, row.eventId = e.eventId → Stores host row e := by
      intro e in_events row in_step id
      rcases only row in_step with old | new
      · exact agree e (List.mem_cons_of_mem _ in_events) row old id
      · exact absurd (id.symm.trans (stores_iff.mp new).1) (ids.1 e in_events)
    obtain ⟨result, ok, count, all, rest⟩ := ih grown ids.2 agree' (by omega)
    have kept := valid_of_appends (insertEvents_appends ok) grown
    refine ⟨(result.1, disposition step.2 :: result.2), ?_, by simp [count], ?_, ?_⟩
    · simp only [insertEventsWithIdsAtomic,append,ok,ok_bind]
    · intro e in_events
      rcases List.mem_cons.mp in_events with rfl | in_events
      · obtain ⟨row, member, stores⟩ := stored
        exact ⟨row, kept.subset member, stores⟩
      · exact all e in_events
    · intro row in_result
      rcases rest row in_result with in_step | ⟨e, in_events, new⟩
      · exact (only row in_step).imp_right (fun new => ⟨event, List.mem_cons_self, new⟩)
      · exact .inr ⟨e, List.mem_cons_of_mem _ in_events, new⟩

/-- Events that are all stored are all skipped. -/
theorem insertEvents_known {host : Host} {rows : List EventRow} {events : List LedgerEvent}
    (distinct : (rows.map EventRow.eventId).Nodup)
    (stored : ∀ event ∈ events, ∃ row ∈ rows, Stores host row event) :
    insertEventsWithIdsAtomic host rows events =
      .ok (rows, List.replicate events.length .existing) := by
  induction events with
  | nil => rfl
  | cons event events ih =>
    obtain ⟨row, member, stores⟩ := stored event List.mem_cons_self
    have step := append_stored distinct member stores
    have rest := ih (fun e in_events => stored e (List.mem_cons_of_mem _ in_events))
    simp [insertEventsWithIdsAtomic,step,rest,List.replicate_succ,disposition]

/-- The principal's rows from position `fromSeq` on. -/
def tailRows (p : String) (fromSeq : UInt64) (rows : List EventRow) : List EventRow :=
  (rowsOf p rows).filter (fun row => decide ((fromSeq.toNat : Int) ≤ row.seqNum))

/-- The events as the rows read. -/
def Reads (host : Host) (rows : List EventRow) (events : List LedgerEvent) : Prop :=
  List.Forall₂ (fun row event => rowToEvent host row = .ok event) rows events

/-- The bundle of these events, or `NoEvents` when there are none. -/
def bundleOf (host : Host) (p : String) (fromSeq : UInt64) (exportedAt : String)
    (events : List LedgerEvent) : Except SyncError SyncBundle :=
  if events = [] then .error .noEvents else .ok {
    principalId := p, fromSeq, exportedAt
    events := events.map toValue
    bundleHash := computeBundleHash host (events.map toValue) }

theorem listEventsFromSeq_reads {host : Host} {rows : List EventRow} (valid : Chained host rows)
    {p : String} {fromSeq : UInt64} (small : fromSeq.toNat < 2 ^ 63) {events : List LedgerEvent}
    (reads : Reads host (tailRows p fromSeq rows) events) :
    listEventsFromSeq host rows p fromSeq = .ok events := by
  rw [listEventsFromSeq,bySeq_chained valid,asI64,if_pos small]
  exact mapAll_ok_iff.mpr reads

theorem export_reads {host : Host} {rows : List EventRow} (valid : Chained host rows)
    {p : String} {fromSeq : UInt64} (small : fromSeq.toNat < 2 ^ 63) {events : List LedgerEvent}
    (reads : Reads host (tailRows p fromSeq rows) events) (exportedAt : String) :
    SyncBundle.export host rows p fromSeq exportedAt = bundleOf host p fromSeq exportedAt events := by
  rw [SyncBundle.export,listEventsFromSeq_reads valid small reads,bundleOf]
  cases events <;> rfl

theorem tailRows_ascending {host : Host} {rows : List EventRow} (valid : Chained host rows)
    (p : String) (fromSeq : UInt64) :
    (tailRows p fromSeq rows).Pairwise (fun a b => a.seqNum < b.seqNum) :=
  ((chain host p).chained_increasing (valid.linked p)).filter _

/-- Rows of portable events. -/
def PortableRows (host : Host) (rows : List EventRow) : Prop :=
  ∀ row ∈ rows, ∃ event, Stores host row event ∧ Portable host event

/-- The rows hold the same event, each at its place in its own chain. -/
def SameEvent (a b : EventRow) : Prop := a = { b with seqNum := a.seqNum, prevHash := a.prevHash }

/-- No id stands for one event in `rows` and for another in `others`. -/
def NoConflict (rows others : List EventRow) : Prop :=
  ∀ a ∈ rows, ∀ b ∈ others, b.eventId = a.eventId → SameEvent b a

theorem stores_same {host : Host} {a b : EventRow} {event : LedgerEvent} (stores : Stores host a event)
    (same : SameEvent b a) : Stores host b event := by
  unfold SameEvent at same
  rw [Stores,same,stores]
  rfl

theorem tailRows_own {p : String} {fromSeq : UInt64} {rows : List EventRow} {row : EventRow}
    (member : row ∈ tailRows p fromSeq rows) : row ∈ rows ∧ row.principalId = p := by
  have own := List.mem_of_mem_filter member
  simpa [rowsOf] using own

theorem reads_exist {host : Host} {rows tail : List EventRow} (written : Written host rows)
    (inside : ∀ row ∈ tail, row ∈ rows)
    (readable : ∀ row ∈ tail, (host.ofText row.payloadJson).isSome = true) :
    ∃ events, Reads host tail events := by
  apply forall₂_of_forall_exists
  intro row member
  obtain ⟨event, stores⟩ := written row (inside row member)
  obtain ⟨payload, parsed⟩ := Option.isSome_iff_exists.mp (readable row member)
  exact ⟨_, rowToEvent_readable stores parsed⟩

section Import

variable {host : Host} {source dest : List EventRow} {p : String} {fromSeq : UInt64} {exportedAt : String}

/-- The events behind portable rows, in the same order. -/
theorem portable_events (portable : PortableRows host (tailRows p fromSeq source)) :
    ∃ events, List.Forall₂ (fun row event => Stores host row event ∧ Portable host event)
      (tailRows p fromSeq source) events := forall₂_of_forall_exists portable

theorem importEvents_decoded {events : List LedgerEvent}
    (portable : List.Forall₂ (fun row event => Stores host row event ∧ Portable host event)
      (tailRows p fromSeq source) events) :
    mapAll (decodeBundleEvent host p) (events.map toValue) = .ok events := by
  rw [mapAll_ok_iff,List.forall₂_map_left_iff]
  apply List.forall₂_same.mpr
  intro event member
  obtain ⟨row, in_tail, stores, portable⟩ := forall₂_right portable member
  have own : event.principalId = p := by
    rw [← (tailRows_own in_tail).2,stores]; rfl
  rw [← own]
  exact decodeBundleEvent_toValue portable

/-- The bundle that portable rows export, and what decoding it gives. -/
theorem export_portable (valid : Chained host source) (small : fromSeq.toNat < 2 ^ 63)
    {events : List LedgerEvent}
    (portable : List.Forall₂ (fun row event => Stores host row event ∧ Portable host event)
      (tailRows p fromSeq source) events) :
    SyncBundle.export host source p fromSeq exportedAt = bundleOf host p fromSeq exportedAt events :=
  export_reads valid small (portable.imp (fun _ _ both => rowToEvent_portable both.1 both.2)) _

theorem importEvents_bundle {events : List LedgerEvent} {bundle : SyncBundle} {rows : List EventRow}
    (portable : List.Forall₂ (fun row event => Stores host row event ∧ Portable host event)
      (tailRows p fromSeq source) events)
    (exported : bundleOf host p fromSeq exportedAt events = .ok bundle)
    {result : List EventRow × List EventInsertDisposition}
    (inserted : insertEventsWithIdsAtomic host rows events = .ok result) :
    ImportResult.import host rows bundle =
      (result.1, .ok ⟨result.2.count .inserted, result.2.count .existing, p⟩) := by
  unfold bundleOf at exported
  split at exported
  · cases exported
  · cases exported
    have decoded := importEvents_decoded portable
    simp only [ImportResult.import,importEvents,ensure_of,ok_bind,decoded,inserted]

/-- Importing the tail of `source` into a ledger that does not contradict it. -/
theorem import_tail (source_valid : Chained host source) (dest_valid : Chained host dest)
    (small : fromSeq.toNat < 2 ^ 63) (portable : PortableRows host (tailRows p fromSeq source))
    (agree : NoConflict (tailRows p fromSeq source) dest)
    (room : dest.length + (tailRows p fromSeq source).length ≤ maxRows) {bundle : SyncBundle}
    (exported : SyncBundle.export host source p fromSeq exportedAt = .ok bundle) :
    ∃ dest' result, ImportResult.import host dest bundle = (dest', .ok result) ∧ dest <+: dest' ∧
      (∀ row ∈ tailRows p fromSeq source, ∃ row' ∈ dest', ∃ event,
        rowToEvent host row = .ok event ∧ rowToEvent host row' = .ok event) ∧
      (∀ row' ∈ dest', row' ∈ dest ∨ ∃ row ∈ tailRows p fromSeq source, ∃ event,
        rowToEvent host row = .ok event ∧ rowToEvent host row' = .ok event) ∧
      ImportResult.import host dest' bundle =
        (dest', .ok ⟨0, (tailRows p fromSeq source).length, p⟩) := by
  obtain ⟨events, pairs⟩ := portable_events portable
  rw [export_portable source_valid small pairs] at exported
  have count : events.length = (tailRows p fromSeq source).length := pairs.length_eq.symm
  have ids : (events.map LedgerEvent.eventId).Nodup := by
    have same : events.map LedgerEvent.eventId = (tailRows p fromSeq source).map EventRow.eventId := by
      symm
      rw [← List.forall₂_eq_eq_eq,List.forall₂_map_left_iff,List.forall₂_map_right_iff]
      exact pairs.imp (fun _ _ both => (stores_iff.mp both.1).1)
    rw [same]
    exact ((List.filter_sublist.trans List.filter_sublist).map _).nodup source_valid.distinct
  have agree' : ∀ event ∈ events, ∀ row ∈ dest, row.eventId = event.eventId → Stores host row event := by
    intro event member row in_dest id
    obtain ⟨origin, in_tail, stores, _⟩ := forall₂_right pairs member
    exact stores_same stores (agree origin in_tail row in_dest (id.trans (stores_iff.mp stores).1.symm))
  obtain ⟨result, inserted, _, all, only⟩ := insertEvents_ok dest_valid ids agree' (by omega)
  have grown := insertEvents_appends inserted
  have again := insertEvents_known (appends_chained grown dest_valid).distinct all
  refine ⟨_, _, importEvents_bundle pairs exported inserted, valid_of_appends grown dest_valid, ?_, ?_, ?_⟩
  · intro row member
    obtain ⟨event, in_events, stores, portable⟩ := forall₂_left pairs member
    obtain ⟨row', in_result, stores'⟩ := all event in_events
    exact ⟨row', in_result, event, rowToEvent_portable stores portable, rowToEvent_portable stores' portable⟩
  · intro row' in_result
    rcases only row' in_result with old | ⟨event, in_events, stores'⟩
    · exact .inl old
    · obtain ⟨row, in_tail, stores, portable⟩ := forall₂_right pairs in_events
      exact .inr ⟨row, in_tail, event, rowToEvent_portable stores portable,
        rowToEvent_portable stores' portable⟩
  · rw [importEvents_bundle pairs exported again,count]
    simp [List.count_replicate]

end Import

theorem import_error_unchanged {host : Host} {rows : List EventRow} {bundle : SyncBundle} {e : SyncError}
    (failed : (ImportResult.import host rows bundle).2 = .error e) :
    (ImportResult.import host rows bundle).1 = rows := by
  unfold ImportResult.import at failed ⊢
  split at failed
  · cases failed
  · rfl

/-- The events of a principal in a ledger. -/
def eventsOf (host : Host) (p : String) (rows : List EventRow) : Set LedgerEvent :=
  { event | ∃ row ∈ rowsOf p rows, rowToEvent host row = .ok event }

/-- What a ledger holds once it was sent an export, when there was one. -/
def receive (host : Host) (rows : List EventRow) (exported : Except SyncError SyncBundle) : List EventRow :=
  match exported with
  | .ok bundle => (ImportResult.import host rows bundle).1
  | .error _ => rows

theorem tailRows_zero {host : Host} {rows : List EventRow} (valid : Chained host rows) (p : String) :
    tailRows p 0 rows = rowsOf p rows := by
  apply List.filter_eq_self.mpr
  intro row member
  obtain ⟨i, bound, rfl⟩ := List.mem_iff_getElem.mp member
  have position := ((chain host p).chained_get (valid.linked p) i bound).1
  simp only [chain,zero_add] at position
  simp [position]

theorem rowToEvent_principal {host : Host} {row : EventRow} {event : LedgerEvent}
    (h : rowToEvent host row = .ok event) : event.principalId = row.principalId := by
  simp only [rowToEvent,bind_ok_iff] at h
  obtain ⟨_, _, h⟩ := h
  split at h <;>
    · simp only [bind_ok_iff] at h
      obtain ⟨_, _, h⟩ := h
      cases h; rfl

theorem eventsOf_mono {host : Host} {p : String} {rows rows' : List EventRow} (kept : rows <+: rows') :
    eventsOf host p rows ⊆ eventsOf host p rows' := by
  rintro event ⟨row, member, reads⟩
  exact ⟨row, (kept.sublist.filter _).subset member, reads⟩

/-- A full bundle adds the sender's events and nothing else. -/
theorem receive_full {host : Host} {p : String} {a b : List EventRow} (valid_a : Chained host a)
    (valid_b : Chained host b) (portable : PortableRows host (rowsOf p b))
    (agree : NoConflict (rowsOf p b) a) (room : a.length + (rowsOf p b).length ≤ maxRows)
    (exportedAt : String) :
    eventsOf host p (receive host a (SyncBundle.export host b p 0 exportedAt)) =
      eventsOf host p a ∪ eventsOf host p b := by
  have whole := tailRows_zero valid_b p
  rw [← whole] at portable agree room
  have small : (0 : UInt64).toNat < 2 ^ 63 := by decide
  rcases exported : SyncBundle.export host b p 0 exportedAt with e | bundle
  · obtain ⟨events, pairs⟩ := portable_events portable
    rw [export_portable valid_b small pairs,bundleOf] at exported
    split at exported
    next none =>
      rw [none] at pairs
      have empty := List.forall₂_nil_right_iff.mp pairs
      rw [whole] at empty
      simp [receive,eventsOf,empty]
    next => cases exported
  · obtain ⟨a', result, imported, kept, all, only, _⟩ :=
      import_tail valid_b valid_a small portable agree room exported
    simp only [receive,imported]
    apply Set.Subset.antisymm
    · rintro event ⟨row, member, reads⟩
      obtain ⟨in_a', own⟩ : row ∈ a' ∧ row.principalId = p := by simpa [rowsOf] using member
      rcases only row in_a' with old | ⟨origin, in_tail, event', reads', same⟩
      · exact .inl ⟨row, by simp [rowsOf,old,own], reads⟩
      · rw [same] at reads
        cases reads
        exact .inr ⟨origin, whole ▸ in_tail, reads'⟩
    · rintro event (old | ⟨row, member, reads⟩)
      · exact eventsOf_mono kept old
      · obtain ⟨row', in_a', event', reads', same⟩ := all row (whole ▸ member)
        rw [reads'] at reads
        cases reads
        have own : row'.principalId = p := by
          rw [← rowToEvent_principal same,rowToEvent_principal reads']
          exact (tailRows_own (whole ▸ member)).2
        exact ⟨row', by simp [rowsOf,in_a',own], same⟩

/-- Export, import, re-import and exchange of bundles, for ledgers only writes have
touched; an import that fails leaves its ledger alone. -/
theorem sync_round_trip (host : Host) :
    (∀ (writes : List Write) (p : String) (fromSeq : UInt64) (exportedAt : String),
      let source := runWrites host [] writes
      fromSeq.toNat < 2 ^ 63 →
      (∀ row ∈ tailRows p fromSeq source, (host.ofText row.payloadJson).isSome = true) →
      (tailRows p fromSeq source).Pairwise (fun a b => a.seqNum < b.seqNum) ∧
      ∃ events, Reads host (tailRows p fromSeq source) events ∧
        SyncBundle.export host source p fromSeq exportedAt = bundleOf host p fromSeq exportedAt events) ∧
    (∀ (writes writes' : List Write) (p : String) (fromSeq : UInt64) (exportedAt : String)
      (bundle : SyncBundle),
      let source := runWrites host [] writes
      let dest := runWrites host [] writes'
      fromSeq.toNat < 2 ^ 63 → PortableRows host (tailRows p fromSeq source) →
      NoConflict (tailRows p fromSeq source) dest →
      dest.length + (tailRows p fromSeq source).length ≤ maxRows →
      SyncBundle.export host source p fromSeq exportedAt = .ok bundle →
      ∃ dest' result, ImportResult.import host dest bundle = (dest', .ok result) ∧ dest <+: dest' ∧
        (∀ row ∈ tailRows p fromSeq source, ∃ row' ∈ dest', ∃ event,
          rowToEvent host row = .ok event ∧ rowToEvent host row' = .ok event) ∧
        ImportResult.import host dest' bundle =
          (dest', .ok ⟨0, (tailRows p fromSeq source).length, p⟩)) ∧
    (∀ (writes writes' : List Write) (p : String) (exportedAt exportedAt' : String),
      let a := runWrites host [] writes
      let b := runWrites host [] writes'
      PortableRows host (rowsOf p a) → PortableRows host (rowsOf p b) →
      NoConflict (rowsOf p a) b → NoConflict (rowsOf p b) a →
      a.length + (rowsOf p b).length ≤ maxRows → b.length + (rowsOf p a).length ≤ maxRows →
      eventsOf host p (receive host a (SyncBundle.export host b p 0 exportedAt')) =
        eventsOf host p a ∪ eventsOf host p b ∧
      eventsOf host p (receive host b (SyncBundle.export host a p 0 exportedAt)) =
        eventsOf host p a ∪ eventsOf host p b) ∧
    (∀ (rows : List EventRow) (bundle : SyncBundle) (e : SyncError),
      (ImportResult.import host rows bundle).2 = .error e →
      (ImportResult.import host rows bundle).1 = rows) := by
  refine ⟨?_, ?_, ?_, fun _ _ _ => import_error_unchanged⟩
  · intro writes p fromSeq exportedAt source small readable
    have valid := runWrites_chained host writes
    have written : Written host source :=
      appends_written (runWrites_appends host [] writes) (chained_nil host) (by simp [Written])
    obtain ⟨events, reads⟩ := reads_exist written (fun row member => (tailRows_own member).1) readable
    exact ⟨tailRows_ascending valid p fromSeq, events, reads, export_reads valid small reads exportedAt⟩
  · intro writes writes' p fromSeq exportedAt bundle source dest small portable agree room exported
    obtain ⟨dest', result, imported, kept, all, _, again⟩ := import_tail (runWrites_chained host writes)
      (runWrites_chained host writes') small portable agree room exported
    exact ⟨dest', result, imported, kept, all, again⟩
  · intro writes writes' p exportedAt exportedAt' a b portable_a portable_b agree_a agree_b room_a room_b
    have valid_a := runWrites_chained host writes
    have valid_b := runWrites_chained host writes'
    refine ⟨receive_full valid_a valid_b portable_b agree_b room_a _, ?_⟩
    rw [Set.union_comm]
    exact receive_full valid_b valid_a portable_a agree_a room_b _

/-- An event of `zaion1alice` with every optional field present. -/
def greeting (eventId eventType : String) : LedgerEvent where
  eventId := eventId
  principalId := "zaion1alice"
  namespaceKey := "main"
  runId := some "run-1"
  eventType := eventType
  payload := .obj [("text", .str "hello"), ("retries", .nat 3)]
  signature := some [1, 255]
  createdAt := "2026-01-01T00:00:00.000Z"
  parentEventId := some "evt-0"

/-- The table of an empty ledger after one import of the event. -/
theorem runWrites_greeting (eventId eventType : String) :
    runWrites sampleHost [] [.insertEventWithIdAndParent (greeting eventId eventType)] =
      [((greeting eventId eventType).prepared sampleHost).row 0 genesisHash] := by
  simp [runWrites,Write.apply,Write.exec,insertEventWithIdAndParent,appendPreparedEventInTransaction,
    findEvent,nextChainPosition,bySeq,rowsOf,insertRow,maxRows,Functor.map,Except.map]

theorem greeting_portable {eventId eventType : String} (id : eventId ≠ "") (type : eventType ≠ "") :
    Portable sampleHost (greeting eventId eventType) where
  eventId := id
  principalId := by simp [greeting]
  namespaceKey := by simp [greeting]
  eventType := type
  createdAt := by simp [greeting]
  time := show (sampleHost.parseRfc3339 "2026-01-01T00:00:00.000Z").isSome = true by decide
  runId := by simp [greeting]
  parentEventId := by simp [greeting]
  payload := sampleHost_readsBack _
    (show Json.plain (.obj [("text", .str "hello"), ("retries", .nat 3)]) = true by decide)

def greetingRow (eventId : String) : EventRow :=
  ((greeting eventId "chat").prepared sampleHost).row 0 genesisHash

theorem greetingRow_portable {eventId : String} (id : eventId ≠ "") :
    PortableRows sampleHost [greetingRow eventId] := by
  intro row member
  rw [List.mem_singleton.mp member]
  exact ⟨greeting eventId "chat", stores_row .., greeting_portable id (by decide)⟩

theorem greetingRow_noConflict {a b : String} (differ : b ≠ a) :
    NoConflict [greetingRow a] [greetingRow b] := by
  intro row in_a row' in_b same
  rw [List.mem_singleton.mp in_a,List.mem_singleton.mp in_b] at same
  exact absurd same differ

theorem greetingRow_export :
    SyncBundle.export sampleHost [greetingRow "evt-1"] "zaion1alice" 0 "2026-01-02T00:00:00.000Z" =
      bundleOf sampleHost "zaion1alice" 0 "2026-01-02T00:00:00.000Z" [greeting "evt-1" "chat"] := by
  have valid := runWrites_chained sampleHost [.insertEventWithIdAndParent (greeting "evt-1" "chat")]
  rw [runWrites_greeting] at valid
  exact export_portable valid (by decide)
    (.cons ⟨stores_row .., greeting_portable (by decide) (by decide)⟩ .nil)

/-- Two ledgers of one principal with an event each: one bundle goes into the other ledger,
and after the exchange both hold both events. -/
theorem sync_round_trip_greetings :
    (∃ dest' result, ImportResult.import sampleHost [greetingRow "evt-2"]
        ⟨"zaion1alice", 0, [toValue (greeting "evt-1" "chat")], "2026-01-02T00:00:00.000Z",
          computeBundleHash sampleHost [toValue (greeting "evt-1" "chat")]⟩ = (dest', .ok result)) ∧
    eventsOf sampleHost "zaion1alice" (receive sampleHost [greetingRow "evt-1"] (SyncBundle.export sampleHost
        [greetingRow "evt-2"] "zaion1alice" 0 "2026-01-02T00:00:00.000Z")) =
      eventsOf sampleHost "zaion1alice" [greetingRow "evt-1"] ∪
        eventsOf sampleHost "zaion1alice" [greetingRow "evt-2"] := by
  obtain ⟨_, imports, exchange, _⟩ := sync_round_trip sampleHost
  have import_one := imports [.insertEventWithIdAndParent (greeting "evt-1" "chat")]
    [.insertEventWithIdAndParent (greeting "evt-2" "chat")] "zaion1alice" 0 "2026-01-02T00:00:00.000Z"
  have exchange_both := exchange [.insertEventWithIdAndParent (greeting "evt-1" "chat")]
    [.insertEventWithIdAndParent (greeting "evt-2" "chat")] "zaion1alice" "2026-01-02T00:00:00.000Z"
    "2026-01-02T00:00:00.000Z"
  simp only [runWrites_greeting] at import_one exchange_both
  constructor
  · obtain ⟨dest', result, imported, _⟩ := import_one _ (by decide) (greetingRow_portable (by decide))
      (greetingRow_noConflict (by decide)) (by decide) greetingRow_export
    exact ⟨dest', result, imported⟩
  · exact (exchange_both (greetingRow_portable (by decide)) (greetingRow_portable (by decide))
      (greetingRow_noConflict (by decide)) (greetingRow_noConflict (by decide)) (by decide) (by decide)).1

theorem import_refused {host : Host} {rows : List EventRow} {p exportedAt : String} {fromSeq : UInt64}
    {events : List Json} {e : SyncError} (refused : mapAll (decodeBundleEvent host p) events = .error e) :
    ImportResult.import host rows ⟨p, fromSeq, events, exportedAt, computeBundleHash host events⟩ =
      (rows, .error e) := by
  simp [ImportResult.import,importEvents,refused]

/-- An event without a type exports and is refused by every import. -/
theorem untyped_event_refused :
    ∃ bundle, SyncBundle.export sampleHost
        (runWrites sampleHost [] [.insertEventWithIdAndParent (greeting "evt-1" "")])
        "zaion1alice" 0 "2026-01-02T00:00:00.000Z" = .ok bundle ∧
      ImportResult.import sampleHost [] bundle =
        ([], .error (.invalidBundle "event missing required field 'event_type'")) := by
  have valid := runWrites_chained sampleHost [.insertEventWithIdAndParent (greeting "evt-1" "")]
  rw [runWrites_greeting] at valid ⊢
  have reads : Reads sampleHost (tailRows "zaion1alice" 0
      [((greeting "evt-1" "").prepared sampleHost).row 0 genesisHash]) [greeting "evt-1" ""] :=
    .cons (rowToEvent_readable (stores_row ..) (sampleHost_readsBack _ (by decide))) .nil
  have exported := export_reads valid (by decide) reads "2026-01-02T00:00:00.000Z"
  rw [bundleOf,if_neg (List.cons_ne_nil _ _)] at exported
  exact ⟨_, exported, import_refused rfl⟩

end Zaion.Sync
