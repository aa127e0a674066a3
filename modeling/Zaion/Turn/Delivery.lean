import Zaion.Turn.Step

/-! Delivery of the outbox. Rows of a tenant are delivered from the first one on, each with
evidence of its ledger event; a row that is set aside stays pending and blocks those after it. -/
namespace Zaion.Turn

open Lib Ledger

variable {host : Host} {limits : Limits} {db db' : Database}

/-- Turns are never dropped, and the columns written at admission stay. -/
def TurnsKept (turns turns' : List TurnRow) : Prop :=
  ∀ t ∈ turns, ∃ t' ∈ turns', t'.toTurnCore = t.toTurnCore

theorem TurnsKept.refl (turns : List TurnRow) : TurnsKept turns turns := fun t member => ⟨t, member, rfl⟩

theorem TurnsKept.trans {first second third : List TurnRow} (kept : TurnsKept first second)
    (kept' : TurnsKept second third) : TurnsKept first third := by
  intro t member
  obtain ⟨t', member', same⟩ := kept t member
  obtain ⟨t'', member'', same'⟩ := kept' t' member'
  exact ⟨t'', member'', same'.trans same⟩

theorem TurnsKept.append (turns : List TurnRow) (turn : TurnRow) : TurnsKept turns (turns ++ [turn]) :=
  fun t member => ⟨t, List.mem_append_left _ member, rfl⟩

theorem TurnsKept.advance (row : TurnRow) (next : TurnState) (revision : Nat)
    (terminalJson terminalHash : Option String) (now : DateTime) (turns : List TurnRow) :
    TurnsKept turns (Table.modify TurnRow.key row.key
      (·.advanced next revision terminalJson terminalHash now) turns) := by
  intro t member
  apply Table.exists_mem_modify TurnRow.key TurnRow.toTurnCore _ member
  exact fun _ _ _ => rfl

theorem TurnStep.turnsKept (step : TurnStep host limits db db') : TurnsKept db.turns db'.turns := by
  cases step with
  | admitRow turn => exact .append _ turn
  | advance row => exact .advance row _ _ _ _ _ _
  | addActor | clear => exact .refl _

theorem Step.turnsKept (step : Step host limits db db') : TurnsKept db.turns db'.turns := by
  cases step with
  | turn step => exact step.turnsKept
  | claim | renew | release | quarantine | deliver | repair | ledger | migrate => exact .refl _

/-- The principal a row's turn belongs to. -/
def PrincipalOf (turns : List TurnRow) (row : OutboxEntry) (principalId : String) : Prop :=
  ∃ t ∈ turns, t.key = (row.tenantId, row.turnId) ∧ t.principalId = principalId

theorem PrincipalOf.kept {turns turns' : List TurnRow} {row : OutboxEntry} {principalId : String}
    (kept : TurnsKept turns turns') (principal : PrincipalOf turns row principalId) :
    PrincipalOf turns' row principalId := by
  obtain ⟨t, member, key, same⟩ := principal
  obtain ⟨t', member', core⟩ := kept t member
  refine ⟨t', member', ?_, ?_⟩
  · rw [← key,TurnRow.key,core,TurnRow.key]
  · rw [core,same]

/-- The ledger has the event that a row stands for. -/
def EventOf (host : Host) (events : List EventRow) (row : OutboxEntry) (principalId : String) : Prop :=
  ∃ e ∈ events, e.eventId = deterministicIdempotentEventId host principalId row.outboxId ∧
    e.eventType = row.eventType

/-- What a delivered row is known by. -/
structure IsDelivered (host : Host) (evidence : List EvidenceRow) (turns : List TurnRow)
    (events : List EventRow) (row : OutboxRow) : Prop where
  evidence : ∃ v ∈ evidence, v.key = row.key
  event : ∃ principalId, PrincipalOf turns row.toOutboxEntry principalId ∧
    row.ledgerEventId = some (deterministicIdempotentEventId host principalId row.outboxId) ∧
    EventOf host events row.toOutboxEntry principalId

/-- What evidence of a commit belongs to. -/
structure EvidenceOf (instanceId : String) (v : EvidenceRow) (row : OutboxRow) : Prop where
  key : row.key = v.key
  delivered : row.status = .delivered
  event : row.ledgerEventId = some v.ledgerEventId
  ofInstance : v.databaseInstanceId = instanceId

/-- What a quarantine row belongs to: a row at its place in the order, pending for good. -/
structure SetAside (turns : List TurnRow) (q : QuarantineRow) (i : Nat) (row : OutboxRow) : Prop where
  key : q.key = row.key
  pending : row.status = .pending
  ordinal : q.commitOrdinal = i + 1
  payloadHash : q.payloadHash = row.payloadHash
  attempts : q.attempts = row.attempts
  principal : PrincipalOf turns row.toOutboxEntry q.principalId

structure Delivery (host : Host) (db : Database) : Prop where
  shapes : ∀ o ∈ db.outbox, o.shapeMatches = true
  inOrder : DeliveredInOrder db
  delivered : ∀ o ∈ db.outbox, o.status = .delivered →
    IsDelivered host db.verifiedCommits db.turns db.events o
  evidenceKeys : Table.Keyed EvidenceRow.key db.verifiedCommits
  evidence : ∀ v ∈ db.verifiedCommits, ∃ o ∈ db.outbox, EvidenceOf db.instanceId v o
  quarantineKeys : Table.Keyed QuarantineRow.key db.quarantines
  setAside : ∀ q ∈ db.quarantines, ∃ (i : Nat) (o : OutboxRow), db.outbox[i]? = some o ∧ SetAside db.turns q i o

theorem Delivery.empty (outbox : db.outbox = []) (evidence : db.verifiedCommits = [])
    (quarantines : db.quarantines = []) : Delivery host db where
  shapes := by simp [outbox]
  inOrder := by simp [DeliveredInOrder,outbox]
  delivered := by simp [outbox]
  evidenceKeys := by simp [Table.Keyed,evidence]
  evidence := by simp [evidence]
  quarantineKeys := by simp [Table.Keyed,quarantines]
  setAside := by simp [quarantines]

section

variable (delivery : Delivery host db)
include delivery

/-- Turns and the ledger may grow. -/
theorem Delivery.frame (outbox : db'.outbox = db.outbox) (evidence : db'.verifiedCommits = db.verifiedCommits)
    (quarantines : db'.quarantines = db.quarantines) (instanceId : db'.instanceId = db.instanceId)
    (turns : TurnsKept db.turns db'.turns) (events : db.events <+: db'.events) : Delivery host db' where
  shapes := by
    rw [outbox]
    exact delivery.shapes
  inOrder := by
    unfold DeliveredInOrder
    rw [outbox]
    exact delivery.inOrder
  delivered := by
    rw [outbox]
    intro o member status
    obtain ⟨found, principalId, principal, event, e, inLedger, rest⟩ := delivery.delivered o member status
    exact ⟨evidence ▸ found, principalId, principal.kept turns, event, e, events.subset inLedger, rest⟩
  evidenceKeys := evidence ▸ delivery.evidenceKeys
  evidence := by
    rw [evidence,outbox]
    intro v member
    obtain ⟨o, inside, of⟩ := delivery.evidence v member
    exact ⟨o, inside, of.key, of.delivered, of.event, instanceId ▸ of.ofInstance⟩
  quarantineKeys := quarantines ▸ delivery.quarantineKeys
  setAside := by
    rw [quarantines,outbox]
    intro q member
    obtain ⟨i, o, position, aside⟩ := delivery.setAside q member
    exact ⟨i, o, position, { aside with principal := aside.principal.kept turns }⟩

/-- A new row comes last and is pending. -/
theorem Delivery.append (entry : OutboxEntry) : Delivery host (db.appendEntry entry) where
  shapes := by
    intro o member
    rcases List.mem_append.mp member with old | new
    · exact delivery.shapes o old
    · rw [List.mem_singleton.mp new]
      rfl
  inOrder := by
    intro j i earlier row before here there tenant status
    have there : (db.outbox ++ [entry.pending])[i]? = some row := there
    have here : (db.outbox ++ [entry.pending])[j]? = some earlier := here
    rcases Nat.lt_or_ge i db.outbox.length with inside | outside
    · rw [List.getElem?_append_left inside] at there
      rw [List.getElem?_append_left (by omega)] at here
      exact delivery.inOrder j i earlier row before here there tenant status
    · rw [List.getElem?_append_right outside] at there
      rw [List.mem_singleton.mp (List.mem_of_getElem? there)] at status
      cases status
  delivered := by
    intro o member status
    rcases List.mem_append.mp member with old | new
    · exact delivery.delivered o old status
    · rw [List.mem_singleton.mp new] at status
      cases status
  evidenceKeys := delivery.evidenceKeys
  evidence := by
    intro v member
    obtain ⟨o, inside, of⟩ := delivery.evidence v member
    exact ⟨o, List.mem_append_left _ inside, of⟩
  quarantineKeys := delivery.quarantineKeys
  setAside := by
    intro q member
    obtain ⟨i, o, position, aside⟩ := delivery.setAside q member
    exact ⟨i, o, List.getElem?_append_left (List.getElem?_eq_some_iff.mp position).1 ▸ position, aside⟩

/-- A row that is not pending is not set aside. -/
theorem Delivery.not_setAside (keyed : Table.Keyed outboxKey db.outbox) {row : OutboxRow}
    (member : row ∈ db.outbox) (status : row.status ≠ .pending) : ∀ q ∈ db.quarantines, q.key ≠ row.key := by
  intro q inside same
  obtain ⟨i, o, position, aside⟩ := delivery.setAside q inside
  have itself : o = row :=
    keyed.eq_of_key (List.mem_of_getElem? position) member (aside.key.symm.trans same)
  exact status (itself ▸ aside.pending)

theorem Delivery.shapes_set {i : Nat} {row' : OutboxRow} (shape : row'.shapeMatches = true) :
    ∀ o ∈ db.outbox.set i row', o.shapeMatches = true := by
  intro o member
  rcases List.mem_or_eq_of_mem_set member with old | rfl
  · exact delivery.shapes o old
  · exact shape

theorem Delivery.setAside_set {i : Nat} {row row' : OutboxRow} (position : db.outbox[i]? = some row)
    (free : ∀ q ∈ db.quarantines, q.key ≠ row.key) :
    ∀ q ∈ db.quarantines, ∃ (j : Nat) (o : OutboxRow), (db.outbox.set i row')[j]? = some o ∧
      SetAside db.turns q j o := by
  intro q member
  obtain ⟨j, o, here, aside⟩ := delivery.setAside q member
  have other : i ≠ j := by
    rintro rfl
    rw [position] at here
    cases here
    exact free q member aside.key
  exact ⟨j, o, by rw [List.getElem?_set_ne other]; exact here, aside⟩

/-- The lease columns of a row change; the row is delivered neither before nor after. -/
theorem Delivery.touch {i : Nat} {row row' : OutboxRow} (position : db.outbox[i]? = some row) (before : row.status ≠ .delivered)
    (after : row'.status ≠ .delivered) (entry : row'.toOutboxEntry = row.toOutboxEntry) (shape : row'.shapeMatches = true)
    (free : ∀ q ∈ db.quarantines, q.key ≠ row.key) :
    Delivery host { db with outbox := db.outbox.set i row' } where
  shapes := delivery.shapes_set shape
  inOrder := by
    intro k j earlier later order here there tenant status
    have here : (db.outbox.set i row')[k]? = some earlier := here
    have there : (db.outbox.set i row')[j]? = some later := there
    rw [List.getElem?_set] at here there
    by_cases atJ : i = j
    · rw [if_pos atJ,if_pos (List.getElem?_eq_some_iff.mp position).1] at there
      exact absurd (Option.some.inj there ▸ status) after
    · rw [if_neg atJ] at there
      by_cases atK : i = k
      · rw [if_pos atK,if_pos (List.getElem?_eq_some_iff.mp position).1] at here
        cases here
        rw [entry] at tenant
        exact absurd (delivery.inOrder i j row later (atK ▸ order) position there tenant status) before
      · rw [if_neg atK] at here
        exact delivery.inOrder k j earlier later order here there tenant status
  delivered := by
    intro o member status
    rcases List.mem_or_eq_of_mem_set member with old | rfl
    · exact delivery.delivered o old status
    · exact absurd status after
  evidenceKeys := delivery.evidenceKeys
  evidence := by
    intro v member
    obtain ⟨o, inside, of⟩ := delivery.evidence v member
    have other : o ≠ row := fun same => before (same ▸ of.delivered)
    exact ⟨o, Table.mem_set_of_ne position inside other, of⟩
  quarantineKeys := delivery.quarantineKeys
  setAside := delivery.setAside_set position free

/-- A pending row is set aside. -/
theorem Delivery.quarantine {i : Nat} {row : OutboxRow} {q : QuarantineRow} (position : db.outbox[i]? = some row)
    (fresh : ∀ other ∈ db.quarantines, other.key ≠ q.key) (aside : SetAside db.turns q i row) :
    Delivery host { db with quarantines := db.quarantines ++ [q] } where
  shapes := delivery.shapes
  inOrder := delivery.inOrder
  delivered := delivery.delivered
  evidenceKeys := delivery.evidenceKeys
  evidence := delivery.evidence
  quarantineKeys := delivery.quarantineKeys.append fresh
  setAside := by
    intro other member
    rcases List.mem_append.mp member with old | new
    · exact delivery.setAside other old
    · rw [List.mem_singleton.mp new]
      exact ⟨i, row, position, aside⟩

/-- The head of a tenant is delivered. -/
theorem Delivery.deliver {i : Nat} {row row' : OutboxRow} {v : EvidenceRow} (head : Head db i row)
    (entry : row'.toOutboxEntry = row.toOutboxEntry) (shape : row'.shapeMatches = true)
    (free : ∀ q ∈ db.quarantines, q.key ≠ row.key) (fresh : ∀ other ∈ db.verifiedCommits, other.key ≠ v.key)
    (evidence : EvidenceOf db.instanceId v row')
    (event : ∃ principalId, PrincipalOf db.turns row.toOutboxEntry principalId ∧
      v.ledgerEventId = deterministicIdempotentEventId host principalId row.outboxId ∧
      EventOf host db.events row.toOutboxEntry principalId) :
    Delivery host { db with outbox := db.outbox.set i row', verifiedCommits := db.verifiedCommits ++ [v] } where
  shapes := delivery.shapes_set shape
  inOrder := by
    intro k j earlier later order here there tenant status
    have here : (db.outbox.set i row')[k]? = some earlier := here
    have there : (db.outbox.set i row')[j]? = some later := there
    have inside := (List.getElem?_eq_some_iff.mp head.position).1
    rw [List.getElem?_set] at here there
    by_cases atK : i = k
    · rw [if_pos atK,if_pos inside] at here
      cases here
      exact evidence.delivered
    · rw [if_neg atK] at here
      by_cases atJ : i = j
      · rw [if_pos atJ,if_pos inside] at there
        cases there
        rw [entry] at tenant
        exact head.first k earlier (atJ ▸ order) here tenant
      · rw [if_neg atJ] at there
        exact delivery.inOrder k j earlier later order here there tenant status
  delivered := by
    intro o member status
    rcases List.mem_or_eq_of_mem_set member with old | rfl
    · obtain ⟨⟨w, inside, key⟩, rest⟩ := delivery.delivered o old status
      exact ⟨⟨w, List.mem_append_left _ inside, key⟩, rest⟩
    · obtain ⟨principalId, principal, id, event⟩ := event
      refine ⟨⟨v, by simp, evidence.key.symm⟩, principalId, entry ▸ principal, ?_, entry ▸ event⟩
      rw [evidence.event,id,entry]
  evidenceKeys := delivery.evidenceKeys.append fresh
  evidence := by
    intro w member
    rcases List.mem_append.mp member with old | new
    · obtain ⟨o, inside, of⟩ := delivery.evidence w old
      have other : o ≠ row := fun same => head.undelivered (same ▸ of.delivered)
      exact ⟨o, Table.mem_set_of_ne head.position inside other, of⟩
    · rw [List.mem_singleton.mp new]
      exact ⟨row', List.mem_set (List.getElem?_eq_some_iff.mp head.position).1 row', evidence⟩
  quarantineKeys := delivery.quarantineKeys
  setAside := delivery.setAside_set head.position free

end

theorem nextOrdinal_ordered (ordered : Ordered db) : nextOrdinal db = db.outbox.length + 1 := by
  unfold nextOrdinal
  rw [ordered.sequence,ordered.order,places_max,Nat.max_self]

theorem appendEntry_ordered (ordered : Ordered db) (entry : OutboxEntry) :
    db.appendEntry entry = { db with
      outbox := db.outbox ++ [entry.pending]
      commitOrder := db.commitOrder ++ [place (db.outbox.length + 1) entry]
      sequence := some (db.outbox.length + 1) } := by
  have next : nextOrdinal { db with outbox := db.outbox ++ [entry.pending] } = db.outbox.length + 1 :=
    nextOrdinal_ordered ordered
  unfold Database.appendEntry insertOrder
  rw [next]
  rfl

theorem Ordered.append {entry : OutboxEntry} (ordered : Ordered db)
    (fresh : ∀ o ∈ db.outbox, outboxKey o ≠ entry.key) : Ordered (db.appendEntry entry) := by
  rw [appendEntry_ordered ordered]
  have order : db.commitOrder ++ [place (db.outbox.length + 1) entry] =
      places (db.outbox ++ [entry.pending]) := by
    rw [places_append,ordered.order]
    rfl
  refine ⟨ordered.keyed.append fresh, order, ?_⟩
  simp only [order,places_ordinals,List.length_append,List.length_singleton,max_range']

theorem Ordered.frame (ordered : Ordered db) (outbox : db'.outbox = db.outbox)
    (order : db'.commitOrder = db.commitOrder) (sequence : db'.sequence = db.sequence) : Ordered db' := by
  refine ⟨?_, ?_, ?_⟩
  · rw [outbox]
    exact ordered.keyed
  · rw [outbox,order]
    exact ordered.order
  · rw [sequence,order]
    exact ordered.sequence

theorem Ordered.setOutbox {key : String × String} {f : OutboxRow → OutboxRow} (ordered : Ordered db)
    (kept : ∀ o, (f o).toOutboxEntry = o.toOutboxEntry) : Ordered (db.setOutbox key f) := by
  refine ⟨ordered.keyed.modify (fun o _ _ => ?_), ?_, ordered.sequence⟩
  · rw [outboxKey,kept]
  · exact ordered.order.trans (places_congr (Table.map_modify (fun o _ _ => kept o)).symm)

theorem Ordered.turnStep (ordered : Ordered db) (step : TurnStep host limits db db') : Ordered db' := by
  cases step with
  | admitRow turn owner now admission =>
    exact Ordered.append (ordered.frame rfl rfl rfl) admission.insertable.key
  | advance row next terminalJson terminalHash owner now advance =>
    exact Ordered.append (ordered.frame rfl rfl rfl) advance.insertable.key
  | addActor | clear => exact ordered.frame rfl rfl rfl

theorem Ordered.step (ordered : Ordered db) (step : Step host limits db db') : Ordered db' := by
  cases step with
  | turn step => exact ordered.turnStep step
  | claim | renew | release =>
    apply ordered.setOutbox
    exact fun _ => rfl
  | quarantine | deliver =>
    apply Ordered.setOutbox
    · exact ordered.frame rfl rfl rfl
    · exact fun _ => rfl
  | repair | ledger | migrate => exact ordered.frame rfl rfl rfl

theorem Ordered.setOutbox_eq {i : Nat} {row : OutboxRow} {f : OutboxRow → OutboxRow} (ordered : Ordered db)
    (position : db.outbox[i]? = some row) :
    db.setOutbox row.key f = { db with outbox := db.outbox.set i (f row) } := by
  unfold Database.setOutbox
  rw [ordered.keyed.modify_eq_set position]

/-- A row that reads back after its update has the shape its status calls for. -/
theorem Readable.reads {i : Nat} {row : OutboxRow} {f : OutboxRow → OutboxRow}
    (readable : Readable host (db.setOutbox row.key f) row.key) (ordered : Ordered db)
    (position : db.outbox[i]? = some row) (kept : ∀ o, (f o).toOutboxEntry = o.toOutboxEntry) :
    ∃ record : TurnOutboxRecord, record.Reads (db.setOutbox row.key f) (f row) ∧
      selectOutbox host (db.setOutbox row.key f) (f row) = .ok (some record) := by
  obtain ⟨record, read⟩ := readable
  obtain ⟨o, found, read⟩ := requireOutbox_ok_iff.mp read
  have selected : Table.select outboxKey row.key db.outbox = some row :=
    ordered.keyed.select_mem (List.mem_of_getElem? position)
  have updated : Table.select outboxKey row.key (db.setOutbox row.key f).outbox = some (f row) := by
    unfold Database.setOutbox
    rw [Table.select_modify_self (fun o same => by rw [outboxKey,kept]; exact same),selected]
    rfl
  obtain rfl := Option.some.inj (found.symm.trans updated)
  exact ⟨record, selectOutbox_reads read, read⟩

theorem not_quarantined {row : OutboxRow} (free : outboxIsQuarantined db row.tenantId row.outboxId = false) :
    ∀ q ∈ db.quarantines, q.key ≠ row.key := by
  unfold outboxIsQuarantined at free
  apply Table.select_none_iff.mp
  simpa [OutboxEntry.key] using free

theorem OutboxRow.heldBy_leased {row : OutboxRow} {owner token : String} {nowMs : Int}
    (held : row.heldBy owner token nowMs = true) : row.status = .leased := by
  simp only [OutboxRow.heldBy,Bool.and_eq_true,decide_eq_true_eq] at held
  exact held.1.1.1

theorem Step.chained (chained : Chained host db.events) (step : Step host limits db db') :
    Chained host db'.events := by
  cases step with
  | ledger events appends => exact appends_chained appends chained
  | turn step => cases step <;> exact chained
  | claim | renew | release | quarantine | deliver | repair | migrate => exact chained

theorem Delivery.turnStep (delivery : Delivery host db) (step : TurnStep host limits db db') :
    Delivery host db' := by
  have kept := step.turnsKept
  cases step with
  | admitRow | advance =>
    apply Delivery.append
    exact delivery.frame rfl rfl rfl rfl kept List.prefix_rfl
  | addActor | clear => exact delivery.frame rfl rfl rfl rfl kept List.prefix_rfl

theorem Delivery.step (delivery : Delivery host db) (ordered : Ordered db) (chained : Chained host db.events)
    (step : Step host limits db db') : Delivery host db' := by
  have kept := step.turnsKept
  cases step with
  | turn step => exact delivery.turnStep step
  | claim i row owner token untilMs now head free available claimable readable =>
    obtain ⟨record, reads, _⟩ := readable.reads ordered head.position (fun _ => rfl)
    rw [ordered.setOutbox_eq head.position]
    exact delivery.touch head.position head.undelivered (by simp [OutboxRow.claimed]) rfl reads.shape
      (not_quarantined free)
  | renew i row owner token untilMs now head free held readable =>
    obtain ⟨record, reads, _⟩ := readable.reads ordered head.position (fun _ => rfl)
    rw [ordered.setOutbox_eq head.position]
    exact delivery.touch head.position head.undelivered head.undelivered rfl reads.shape
      (not_quarantined free)
  | release i row owner token now availableAt error head held readable =>
    obtain ⟨record, reads, _⟩ := readable.reads ordered head.position (fun _ => rfl)
    rw [ordered.setOutbox_eq head.position]
    have free := delivery.not_setAside ordered.keyed head.mem (by simp [OutboxRow.heldBy_leased held])
    exact delivery.touch head.position head.undelivered (by simp [OutboxRow.released]) rfl reads.shape free
  | quarantine i row q owner token now error head held quarantines readable =>
    have ordered' : Ordered { db with quarantines := db.quarantines ++ [q] } := ordered.frame rfl rfl rfl
    obtain ⟨record, reads, _⟩ := readable.reads ordered' head.position (fun _ => rfl)
    rw [ordered'.setOutbox_eq head.position]
    have free := delivery.not_setAside ordered.keyed head.mem (by simp [OutboxRow.heldBy_leased held])
    have released : Delivery host
        { db with outbox := db.outbox.set i (row.released now.millis now.millis error) } :=
      delivery.touch head.position head.undelivered (by simp [OutboxRow.released]) rfl reads.shape free
    exact released.quarantine (List.getElem?_set_self (List.getElem?_eq_some_iff.mp head.position).1)
      quarantines.fresh ⟨quarantines.key, rfl, quarantines.ordinal, quarantines.payloadHash,
        quarantines.attempts, quarantines.principal⟩
  | deliver i row v owner token now head held fresh verified readable =>
    have ordered' : Ordered { db with verifiedCommits := db.verifiedCommits ++ [v] } :=
      ordered.frame rfl rfl rfl
    obtain ⟨record, reads, _⟩ := readable.reads ordered' head.position (fun _ => rfl)
    rw [ordered'.setOutbox_eq head.position]
    have free := delivery.not_setAside ordered.keyed head.mem (by simp [OutboxRow.heldBy_leased held])
    obtain ⟨t, turn, key, event⟩ := verified.event
    obtain ⟨e, inLedger, id, type⟩ := verified.inLedger
    exact delivery.deliver head rfl reads.shape free fresh ⟨verified.key.symm, rfl, rfl, verified.instanceId⟩
      ⟨t.principalId, ⟨t, turn, key, rfl⟩, event, e, inLedger, id.trans event, type⟩
  | repair row v member status key fresh =>
    obtain ⟨w, inside, same⟩ := (delivery.delivered row member status).evidence
    exact absurd (same.trans key.symm) (fresh w inside)
  | ledger events appends => exact delivery.frame rfl rfl rfl rfl kept (valid_of_appends appends chained)
  | migrate => exact delivery.frame rfl rfl rfl rfl kept List.prefix_rfl

end Zaion.Turn
