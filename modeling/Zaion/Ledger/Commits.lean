import Zaion.Ledger.Binding
import Zaion.Sample

/-! What a commit token says for good: the event of one binding is in the ledger, and no other binding's. -/
namespace Zaion.Ledger

open Lib

/-- What the digest of a binding is taken of. -/
def bindingEnvelope (path instanceId eventId : String) (binding : IdempotentEventBinding) : Json := .obj [
  ("schema", .str "zaion.ledger.verified_event_binding.v2"),
  ("canonical_ledger_path_bytes", .str (hexEncode (Host.utf8 path))),
  ("database_instance_id", .str instanceId),
  ("event_id", .str eventId),
  ("idempotency_key", .str binding.idempotencyKey),
  ("principal_id", .str binding.principalId),
  ("namespace_key", .str binding.namespaceKey),
  ("run_id", .ofOption .str binding.runId),
  ("event_type", .str binding.eventType),
  ("payload", binding.payload),
  ("parent_event_id", .ofOption .str binding.parentEventId),
  ("signature_mode", .str "canonical_envelope_v2")]

/-- The texts written of a payload, on its own and in the envelope, read back to what was written. -/
structure TextExact (host : Host) (path instanceId : String) (binding : IdempotentEventBinding) : Prop where
  payload : host.ofText (host.toText binding.payload) = some binding.payload
  envelope : host.ofText (host.toText (bindingEnvelope path instanceId (binding.expectedEventId host) binding)) =
    some (bindingEnvelope path instanceId (binding.expectedEventId host) binding)

/-- The event has all the fields of the binding. -/
structure Fulfils (host : Host) (binding : IdempotentEventBinding) (event : LedgerEvent) : Prop where
  eventId : event.eventId = binding.expectedEventId host
  principalId : event.principalId = binding.principalId
  namespaceKey : event.namespaceKey = binding.namespaceKey
  runId : event.runId = binding.runId
  eventType : event.eventType = binding.eventType
  payload : event.payload = binding.payload
  parentEventId : event.parentEventId = binding.parentEventId

/-- The same key of the same principal. -/
structure SameKey (a b : IdempotentEventBinding) : Prop where
  idempotencyKey : a.idempotencyKey = b.idempotencyKey
  principalId : a.principalId = b.principalId

section

variable {host : Host} {rows later : List EventRow} {row : EventRow} {eventId : String}

theorem findEvent_of_prefix (front : rows <+: later) (found : findEvent rows eventId = some row) :
    findEvent later eventId = some row := by
  obtain ⟨more, rfl⟩ := front
  rw [findEvent,List.find?_append]
  unfold findEvent at found
  rw [found]
  rfl

/-- One event at most has an id. -/
theorem count_le_one (valid : Chained host rows) (eventId : String) :
    (rows.filter fun row => decide (row.eventId = eventId)).length ≤ 1 := by
  have ids := (List.nodup_iff_count_le_one.mp valid.distinct) eventId
  rw [List.count,List.countP_map,List.countP_eq_length_filter] at ids
  simpa [Function.comp_def,beq_eq_decide] using ids

end

section

variable {host : Host} {path instanceId : String} {a b : IdempotentEventBinding}

/-- Envelopes of texts that read back are told apart by their digests. -/
theorem bindingDigest_injective (collisionFree : host.CollisionFree) (readsA : TextExact host path instanceId a)
    (readsB : TextExact host path instanceId b)
    (same : bindingDigest host path instanceId (a.expectedEventId host) a =
      bindingDigest host path instanceId (b.expectedEventId host) b) : a = b := by
  have digests := collisionFree ((String.append_right_inj _).mp same)
  have texts : host.toText (bindingEnvelope path instanceId (a.expectedEventId host) a) =
      host.toText (bindingEnvelope path instanceId (b.expectedEventId host) b) :=
    toByteArray_toList_injective digests
  have envelopes : bindingEnvelope path instanceId (a.expectedEventId host) a =
      bindingEnvelope path instanceId (b.expectedEventId host) b :=
    Option.some.inj (readsA.envelope.symm.trans ((congrArg host.ofText texts).trans readsB.envelope))
  simp only [bindingEnvelope,Json.obj.injEq,List.cons.injEq,Prod.mk.injEq,Json.str.injEq,true_and,and_true] at envelopes
  obtain ⟨_, key, principal, space, run, type, payload, parent⟩ := envelopes
  cases a
  cases b
  simp only [IdempotentEventBinding.mk.injEq]
  exact ⟨key, principal, space, Json.ofOption_injective Json.str_injective (fun _ => Json.noConfusion) run, type, payload,
    Json.ofOption_injective Json.str_injective (fun _ => Json.noConfusion) parent⟩

end

/-- What `append_signed_idempotent_event_with_parent` stores for the binding. -/
def IdempotentEventBinding.prepared (host : Host) (createdAt : String) (keypair : Keypair)
    (binding : IdempotentEventBinding) : PreparedEvent :=
  LedgerEvent.prepared host {
    eventId := deterministicIdempotentEventId host (host.principalOf keypair.publicKey) binding.idempotencyKey
    principalId := host.principalOf keypair.publicKey
    namespaceKey := binding.namespaceKey
    runId := binding.runId
    eventType := binding.eventType
    payload := binding.payload
    signature := some (signEventEnvelope host keypair binding.namespaceKey binding.runId binding.eventType
      binding.payload binding.parentEventId)
    createdAt
    parentEventId := binding.parentEventId }

/-- The row is what the keypair stores for the binding. -/
structure Committed (host : Host) (rows : List EventRow) (keypair : Keypair) (binding : IdempotentEventBinding)
    (row : EventRow) : Prop where
  principal : binding.principalId = host.principalOf keypair.publicKey
  key : validIdempotencyKey binding.idempotencyKey = true
  found : findEvent rows (binding.expectedEventId host) = some row
  same : row.matches (binding.prepared host "" keypair) false

section

variable {host : Host} (ledger : LiveLedger) {more : List EventRow} {row : EventRow} {keypair : Keypair}
  {a b : IdempotentEventBinding} {createdAt : String}

/-- The two ways an append of a binding ends. -/
theorem appendVerified_cases (host : Host) (ledger : LiveLedger) (createdAt : String) (keypair : Keypair)
    (b : IdempotentEventBinding) :
    (∃ e, appendVerifiedIdempotentEvent host ledger createdAt keypair b = (ledger.events, .error e)) ∨
    ∃ rows inserted, b.principalId = host.principalOf keypair.publicKey ∧ validIdempotencyKey b.idempotencyKey = true ∧
      appendPreparedEventInTransaction host ledger.events (b.prepared host createdAt keypair) .matchIgnoringCreatedAt =
        .ok (rows, inserted) ∧
      appendVerifiedIdempotentEvent host ledger createdAt keypair b =
        (rows, verifyExistingIdempotentEvent host { ledger with events := rows } keypair.publicKey b) := by
  unfold appendVerifiedIdempotentEvent
  split
  next e _ => exact .inl ⟨e, rfl⟩
  next principal =>
    split
    next e _ => exact .inl ⟨e, rfl⟩
    next rows inserted appended =>
      simp only [verifyPrincipalBinding,ensure_ok_iff] at principal
      simp only [appendSignedIdempotentEventWithParent,bind_ok_iff,ensure_ok_iff] at appended
      obtain ⟨_, key, appended⟩ := appended
      exact .inr ⟨rows, inserted, principal, key, appended, rfl⟩

/-- The time of the append is not looked at. -/
theorem matches_prepared {d : String} :
    row.matches (b.prepared host createdAt keypair) false ↔ row.matches (b.prepared host d keypair) false := by
  simp [EventRow.matches,IdempotentEventBinding.prepared,LedgerEvent.prepared]

/-- An append adds nothing, or the one row that was missing. -/
theorem appendVerified_rows (valid : Chained host ledger.events) (principal : b.principalId = host.principalOf keypair.publicKey)
    {rows : List EventRow} {inserted : Bool}
    (appended : appendPreparedEventInTransaction host ledger.events (b.prepared host createdAt keypair)
      .matchIgnoringCreatedAt = .ok (rows, inserted)) :
    (∃ row ∈ rows, row.eventId = b.expectedEventId host ∧ row.matches (b.prepared host "" keypair) false) ∧
    (rows = ledger.events ∨ ∃ row, rows = ledger.events ++ [row] ∧ row.eventId = b.expectedEventId host ∧
      ∀ old ∈ ledger.events, old.eventId ≠ b.expectedEventId host) := by
  have id : b.expectedEventId host = (b.prepared host createdAt keypair).eventId := by
    rw [IdempotentEventBinding.expectedEventId,principal]
    rfl
  rcases append_cases valid appended with ⟨existing, member, sameId, same, result⟩ | ⟨fresh, _, result⟩
  · cases result
    exact ⟨⟨existing, member, sameId.trans id.symm, matches_prepared.mp same⟩, .inl rfl⟩
  · cases result
    refine ⟨⟨_, List.mem_append_right _ (List.mem_singleton_self _), id.symm, ?_⟩,
      .inr ⟨_, rfl, id.symm, fun old member => id ▸ fresh old member⟩⟩
    exact ⟨rfl, rfl, rfl, rfl, rfl, rfl, nofun, rfl⟩

theorem appendVerified_of_append {rows : List EventRow} {inserted : Bool}
    (principal : b.principalId = host.principalOf keypair.publicKey) (key : validIdempotencyKey b.idempotencyKey = true)
    (appended : appendPreparedEventInTransaction host ledger.events (b.prepared host createdAt keypair)
      .matchIgnoringCreatedAt = .ok (rows, inserted)) :
    appendVerifiedIdempotentEvent host ledger createdAt keypair b =
      (rows, verifyExistingIdempotentEvent host { ledger with events := rows } keypair.publicKey b) := by
  have signed : appendSignedIdempotentEventWithParent host ledger.events createdAt keypair b.namespaceKey b.eventType
      b.payload b.runId b.parentEventId b.idempotencyKey = .ok (rows, inserted) := by
    rw [appendSignedIdempotentEventWithParent,ensure_of key,ok_bind]
    exact appended
  simp only [appendVerifiedIdempotentEvent,verifyPrincipalBinding,ensure_of principal,signed]

/-- A token is given for a row that holds the binding. -/
theorem committed_of_token {rows : List EventRow} {token : VerifiedEventCommit} (valid : Chained host ledger.events)
    (done : appendVerifiedIdempotentEvent host ledger createdAt keypair b = (rows, .ok token)) :
    ∃ row, Committed host rows keypair b row := by
  rcases appendVerified_cases host ledger createdAt keypair b with ⟨e, failed⟩ | ⟨rows', inserted, principal, key, appended, result⟩
  · rw [failed] at done
    cases done
  · rw [result] at done
    obtain ⟨rfl, -⟩ := Prod.mk.inj done
    obtain ⟨⟨row, member, id, same⟩, -⟩ := appendVerified_rows ledger valid principal appended
    have chained := appends_chained (.single appended) valid
    exact ⟨row, principal, key, id ▸ findEvent_of_mem chained.distinct member, same⟩

/-- It is what the check of the ledger afterwards gave. -/
theorem verified_of_token {rows : List EventRow} {token : VerifiedEventCommit}
    (done : appendVerifiedIdempotentEvent host ledger createdAt keypair b = (rows, .ok token)) :
    verifyExistingIdempotentEvent host { ledger with events := rows } keypair.publicKey b = .ok token := by
  rcases appendVerified_cases host ledger createdAt keypair b with ⟨e, failed⟩ | ⟨rows', inserted, -, -, -, result⟩
  · rw [failed] at done
    cases done
  · rw [result] at done
    obtain ⟨rfl, verified⟩ := Prod.mk.inj done
    exact verified

/-- A row of what the keypair signed passes the check of the ledger. -/
theorem Committed.verifies (committed : Committed host ledger.events keypair b row) (signs : host.SignsFor keypair)
    (payload : host.ofText (host.toText b.payload) = some b.payload) :
    ∃ token, verifyExistingIdempotentEvent host ledger keypair.publicKey b = .ok token := by
  obtain ⟨principal, -, found, owner, space, run, type, text, signature, -, parent⟩ := committed
  have read : rowToEvent host row = .ok ⟨b.expectedEventId host, b.principalId, b.namespaceKey, b.runId, b.eventType,
      b.payload, some (signEventEnvelope host keypair b.namespaceKey b.runId b.eventType b.payload b.parentEventId),
      row.createdAt, b.parentEventId⟩ := by
    apply rowToEvent_ok_iff.mpr
    refine ⟨?_, ?_, ?_⟩
    · rw [text]
      exact payload
    · rw [signature]
      simp [IdempotentEventBinding.prepared,LedgerEvent.prepared,hexDecode_hexEncode]
    · simp only [LedgerEvent.mk.injEq,true_and]
      exact ⟨(findEvent_some found).2.symm, principal.trans owner.symm, space.symm, run.symm, type.symm, parent.symm⟩
  simp only [verifyExistingIdempotentEvent,verifyPrincipalBinding,ensure_of principal,found,required_some,ok_bind,read,verifySame,
    ensure_of]
  have passes : verifyEventSignature host keypair.publicKey ⟨b.expectedEventId host, b.principalId, b.namespaceKey, b.runId,
      b.eventType, b.payload, some (signEventEnvelope host keypair b.namespaceKey b.runId b.eventType b.payload
        b.parentEventId), row.createdAt, b.parentEventId⟩ = some .canonicalEnvelope := by
    simp [verifyEventSignature,signEventEnvelope,principal,signs _]
  rw [passes]
  exact ⟨_, rfl⟩

theorem Committed.later {rows : List EventRow} (committed : Committed host rows keypair b row) (front : rows <+: more) :
    Committed host more keypair b row :=
  { committed with found := findEvent_of_prefix front committed.found }

/-- The evidence for a binding is read off the one row with its id. -/
theorem verifyExisting_congr {a b : LiveLedger} {publicKey : List UInt8} {binding : IdempotentEventBinding}
    (path : a.path = b.path) (instanceId : a.instanceId = b.instanceId)
    (row : findEvent a.events (binding.expectedEventId host) = findEvent b.events (binding.expectedEventId host)) :
    verifyExistingIdempotentEvent host a publicKey binding = verifyExistingIdempotentEvent host b publicKey binding := by
  simp only [verifyExistingIdempotentEvent,path,instanceId,row]

/-- A retry finds the row and adds nothing. -/
theorem Committed.retry {rows : List EventRow} (committed : Committed host rows keypair b row) (path instanceId : String)
    (createdAt : String) :
    appendVerifiedIdempotentEvent host ⟨path, instanceId, rows⟩ createdAt keypair b =
      (rows, verifyExistingIdempotentEvent host ⟨path, instanceId, rows⟩ keypair.publicKey b) := by
  obtain ⟨principal, key, found, same⟩ := committed
  rw [IdempotentEventBinding.expectedEventId,principal] at found
  have matched : equivalent .matchIgnoringCreatedAt row (b.prepared host createdAt keypair) := matches_prepared.mpr same
  have stored : appendPreparedEventInTransaction host rows (b.prepared host createdAt keypair) .matchIgnoringCreatedAt =
      .ok (rows, false) := by
    simp only [appendPreparedEventInTransaction,
      show findEvent rows (b.prepared host createdAt keypair).eventId = some row from found,ensure_of matched,ok_bind]
  exact appendVerified_of_append ⟨path, instanceId, rows⟩ principal key stored

/-- Two bindings one row holds are the same, if their payloads' texts read back. -/
theorem eq_of_matches {keypair' : Keypair} (same : row.matches (a.prepared host "" keypair) false)
    (same' : row.matches (b.prepared host createdAt keypair') false)
    (principal : a.principalId = host.principalOf keypair.publicKey)
    (principal' : b.principalId = host.principalOf keypair'.publicKey) (key : a.idempotencyKey = b.idempotencyKey)
    (payload : host.ofText (host.toText a.payload) = some a.payload)
    (payload' : host.ofText (host.toText b.payload) = some b.payload) : a = b := by
  obtain ⟨owner, space, run, type, text, -, -, parent⟩ := same
  obtain ⟨owner', space', run', type', text', -, -, parent'⟩ := same'
  have texts : host.toText a.payload = host.toText b.payload := text.symm.trans text'
  have payloads : a.payload = b.payload :=
    Option.some.inj (payload.symm.trans ((congrArg host.ofText texts).trans payload'))
  have owners : a.principalId = b.principalId := principal.trans ((owner.symm.trans owner').trans principal'.symm)
  cases a
  cases b
  simp only [IdempotentEventBinding.mk.injEq]
  exact ⟨key, owners, space.symm.trans space', run.symm.trans run', type.symm.trans type', payloads, parent.symm.trans parent'⟩

/-- Another binding under the key of a stored one is refused. -/
theorem Committed.refuses {rows : List EventRow} {keypair' : Keypair} (committed : Committed host rows keypair a row)
    (path instanceId : String) (payload : host.ofText (host.toText a.payload) = some a.payload)
    (payload' : host.ofText (host.toText b.payload) = some b.payload) (key : b.idempotencyKey = a.idempotencyKey)
    (signer : b.principalId = a.principalId ∨ keypair' = keypair) (other : b ≠ a) :
    ∃ e, appendVerifiedIdempotentEvent host ⟨path, instanceId, rows⟩ createdAt keypair' b = (rows, .error e) := by
  rcases appendVerified_cases host ⟨path, instanceId, rows⟩ createdAt keypair' b with
    failed | ⟨rows', inserted, principal, -, appended, -⟩
  · exact failed
  · exfalso
    have owners : b.principalId = a.principalId := by
      rcases signer with same | same
      · exact same
      · rw [principal,committed.principal,same]
    have id : b.expectedEventId host = a.expectedEventId host := by
      rw [IdempotentEventBinding.expectedEventId,IdempotentEventBinding.expectedEventId,owners,key]
    have prepared : (b.prepared host createdAt keypair').eventId = b.expectedEventId host := by
      rw [IdempotentEventBinding.expectedEventId,principal]
      rfl
    have found := committed.found
    rw [← id,← prepared] at found
    unfold appendPreparedEventInTransaction at appended
    rw [found] at appended
    simp only [bind_ok_iff,ensure_ok_iff] at appended
    obtain ⟨_, matched, _⟩ := appended
    exact other (eq_of_matches committed.same matched committed.principal principal key.symm payload payload').symm

/-- What a successful check of the ledger has read. -/
theorem verifyExisting_fulfils {publicKey : List UInt8} {token : VerifiedEventCommit}
    (verified : verifyExistingIdempotentEvent host ledger publicKey b = .ok token) :
    token = ⟨b.expectedEventId host, ledger.path, ledger.instanceId,
      bindingDigest host ledger.path ledger.instanceId (b.expectedEventId host) b, publicKey⟩ ∧
    ∃ row ∈ ledger.events, ∃ event, rowToEvent host row = .ok event ∧ Fulfils host b event := by
  simp only [verifyExistingIdempotentEvent,bind_ok_iff,required_ok_iff,verifySame,ensure_ok_iff] at verified
  obtain ⟨_, _, row, found, event, read, _, id, _, principal, _, space, _, run, _, type, _, payload, _, parent, _, _, result⟩ :=
    verified
  exact ⟨(Except.ok.inj result).symm, row, (findEvent_some found).1, event, read,
    ⟨id, principal, space, run, type, payload, parent⟩⟩

/-- The token of a stored binding matches it and no other. -/
theorem matchesBinding_iff (collisionFree : host.CollisionFree) {token : VerifiedEventCommit}
    (readsA : TextExact host ledger.path ledger.instanceId a) (readsB : TextExact host ledger.path ledger.instanceId b)
    (verified : verifyExistingIdempotentEvent host ledger keypair.publicKey a = .ok token) :
    token.matchesBinding host ledger b = .ok true ↔ b = a := by
  obtain ⟨rfl, -⟩ := verifyExisting_fulfils ledger verified
  constructor
  · intro matched
    simp only [VerifiedEventCommit.matchesBinding] at matched
    split at matched
    next all => exact (bindingDigest_injective collisionFree readsA readsB all.2.2.2).symm
    next => cases matched
  · rintro rfl
    simp [VerifiedEventCommit.matchesBinding,VerifiedEventCommit.matchesBindingInConnection,verified]

end

/-- The rows are the old ones or these with the one row added that was missing, and one row at most has the id. -/
structure AddsOnce (host : Host) (old : List EventRow) (b : IdempotentEventBinding) (rows : List EventRow) : Prop where
  adds : rows = old ∨ ∃ row, rows = old ++ [row] ∧ row.eventId = b.expectedEventId host ∧
    ∀ earlier ∈ old, earlier.eventId ≠ b.expectedEventId host
  single : (rows.filter fun row => decide (row.eventId = b.expectedEventId host)).length ≤ 1

/-- In the ledger as it is later, the token is the binding's: a retry gets it again, another binding under the key
fails, neither adds a row, and it matches no other binding. -/
structure StandsFor (host : Host) (later : LiveLedger) (keypair : Keypair) (b : IdempotentEventBinding)
    (token : VerifiedEventCommit) : Prop where
  retry : ∀ createdAt, appendVerifiedIdempotentEvent host later createdAt keypair b = (later.events, .ok token)
  refuses : ∀ other createdAt signer, TextExact host later.path later.instanceId other → other ≠ b →
    other.idempotencyKey = b.idempotencyKey → other.principalId = b.principalId ∨ signer = keypair →
    ∃ e, appendVerifiedIdempotentEvent host later createdAt signer other = (later.events, .error e)
  exact : ∀ other, TextExact host later.path later.instanceId other →
    (token.matchesBinding host later other = .ok true ↔ other = b)

section

variable {host : Host} {rows later : List EventRow} {path instanceId createdAt : String} {keypair : Keypair}
  {b : IdempotentEventBinding}

theorem addsOnce (valid : Chained host rows) :
    AddsOnce host rows b (appendVerifiedIdempotentEvent host ⟨path, instanceId, rows⟩ createdAt keypair b).1 where
  adds := by
    rcases appendVerified_cases host ⟨path, instanceId, rows⟩ createdAt keypair b with
      ⟨e, failed⟩ | ⟨rows', inserted, principal, -, appended, result⟩
    · rw [failed]
      exact .inl rfl
    · rw [result]
      exact (appendVerified_rows ⟨path, instanceId, rows⟩ valid principal appended).2
  single := count_le_one (appends_chained (appendVerified_appends ..) valid) _

theorem standsFor (collisionFree : host.CollisionFree) (valid : Chained host rows) (reads : TextExact host path instanceId b)
    {after : List EventRow} {token : VerifiedEventCommit}
    (done : appendVerifiedIdempotentEvent host ⟨path, instanceId, rows⟩ createdAt keypair b = (after, .ok token))
    (appends : Appends host after later) : StandsFor host ⟨path, instanceId, later⟩ keypair b token := by
  have chained : Chained host after := by
    have grown := appends_chained (appendVerified_appends host ⟨path, instanceId, rows⟩ createdAt keypair b) valid
    rwa [done] at grown
  obtain ⟨row, committed⟩ := committed_of_token ⟨path, instanceId, rows⟩ valid done
  have kept := committed.later (valid_of_appends appends chained)
  have verified : verifyExistingIdempotentEvent host ⟨path, instanceId, later⟩ keypair.publicKey b = .ok token := by
    rw [← verified_of_token ⟨path, instanceId, rows⟩ done]
    exact verifyExisting_congr rfl rfl (kept.found.trans committed.found.symm)
  refine ⟨fun createdAt => ?_, fun other createdAt signer reads' differs key signed => ?_, fun other reads' => ?_⟩
  · rw [kept.retry,verified]
  · exact kept.refuses path instanceId reads.payload reads'.payload key signed differs
  · exact matchesBinding_iff ⟨path, instanceId, later⟩ collisionFree reads reads' verified

end

/-- Payloads that are exact and not nested too deep are written so that they read back. -/
theorem textExact_of_plain {host : Host} (readsBack : host.ReadsBack) {path instanceId : String} {b : IdempotentEventBinding}
    (exact : b.payload.exact = true) (shallow : b.payload.depth ≤ 126) : TextExact host path instanceId b where
  payload := readsBack _ (by simp only [Json.plain,exact,Bool.true_and,decide_eq_true_eq]; omega)
  envelope := by
    have run := Json.ofOption_str_plain b.runId
    have parent := Json.ofOption_str_plain b.parentEventId
    apply readsBack
    simp [bindingEnvelope,Json.plain,Json.exact,Json.exactFields,Json.depth,Json.depthFields,run,parent,exact]
    omega

/-- A signed binding whose event is not there yet gets its token. -/
theorem fresh_commits {host : Host} {rows : List EventRow} {path instanceId createdAt : String} {keypair : Keypair}
    {b : IdempotentEventBinding} (valid : Chained host rows) (fresh : ∀ row ∈ rows, row.eventId ≠ b.expectedEventId host)
    (room : rows.length < maxRows) (signs : host.SignsFor keypair)
    (principal : b.principalId = host.principalOf keypair.publicKey) (key : validIdempotencyKey b.idempotencyKey = true)
    (payload : host.ofText (host.toText b.payload) = some b.payload) :
    ∃ token, (appendVerifiedIdempotentEvent host ⟨path, instanceId, rows⟩ createdAt keypair b).2 = .ok token := by
  have id : b.expectedEventId host = (b.prepared host createdAt keypair).eventId := by
    rw [IdempotentEventBinding.expectedEventId,principal]
    rfl
  obtain ⟨seqNum, prevHash, appended⟩ := append_fresh .matchIgnoringCreatedAt valid (id ▸ fresh) room
  obtain ⟨⟨row, member, sameId, same⟩, -⟩ := appendVerified_rows ⟨path, instanceId, rows⟩ valid principal appended
  have found := findEvent_of_mem (appends_chained (.single appended) valid).distinct member
  rw [sameId] at found
  rw [appendVerified_of_append ⟨path, instanceId, rows⟩ principal key appended]
  exact Committed.verifies _ ⟨principal, key, found, same⟩ signs payload

def sampleBinding (payload : Json) : IdempotentEventBinding :=
  ⟨"delivery:1", "zaion1", "ns", none, "turn_delivered", payload, none⟩

end Zaion.Ledger
