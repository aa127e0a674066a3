import Zaion.Approval.Decision

/-! What the operator is told and what the requester returns. A response is popped and sent
under the lock of the queue; the waiting call may have given up by then, and it stores the scope
it was granted under another lock, later. Where neither gap is hit the two sides agree. -/
namespace Zaion.Approval

open Lib

def ApprovalResponse.isSessionApproval (response : ApprovalResponse) : Bool :=
  response.decision = .approved ∧ response.scope = .session

/-- An approval for the session is on its way to the map. -/
def Call.grantsSession (call : Call) : Bool :=
  match call.phase with
  | .waiting => call.channel.any (·.isSessionApproval)
  | .received response => response.isSessionApproval
  | _ => false

/-- `recv_timeout` has given up and the entry is still to be removed. -/
def Call.gaveUp (call : Call) : Bool :=
  match call.phase with
  | .timedOut => true
  | _ => false

def Action.clears : Action → Option String
  | .clearSessionApprovals sessionKey => some sessionKey
  | _ => none

/-- No entry is popped whose call has given up, and no session is cleared while an approval
for it is on its way. -/
def Undisturbed (system : System) (action : Action) : Prop :=
  (∀ entry ∈ action.takes system.chain, ∀ call ∈ system.calls[entry.responseTx]?, call.gaveUp = false) ∧
  ∀ s ∈ action.clears, ∀ call ∈ system.calls, call.request.sessionKey = s → call.grantsSession = false

instance : Decidable (Undisturbed system action) := inferInstanceAs (Decidable (_ ∧ _))

/-- Every step of the run is taken in a state that leaves it undisturbed. -/
def Calm (system : System) : List Action → Prop
  | [] => True
  | action :: rest => Undisturbed system action ∧ Calm (system.step action) rest

instance decidableCalm : (system : System) → (actions : List Action) → Decidable (Calm system actions)
  | _, [] => inferInstanceAs (Decidable True)
  | system, action :: rest =>
    have := decidableCalm (system.step action) rest
    inferInstanceAs (Decidable (Undisturbed system action ∧ Calm (system.step action) rest))

/-- The two sides agree. A popped request returns the response it was popped with, and can always
go on to do so; after `clear_session_approvals` nothing is approved for the session until the next
approval for it is given. -/
structure Agreed (system : System) : Prop where
  answered : ∀ i s response, .taken i s response ∈ system.log →
    (∀ request result, .returned i request result ∈ system.log → result = .ok response) ∧
    ∃ steps request, (∀ action ∈ steps, ∃ now, action = .proceed i now) ∧
      .returned i request (.ok response) ∈ (system.run steps).log
  cleared : ∀ before s after, system.log = before ++ .cleared s :: after →
    (∀ i response, .taken i s response ∈ after → response.isSessionApproval = false) →
      ∀ command, system.chain.sessionApproved s command = false

/-- The response is in the call's hands and will be its result. -/
def Call.Answered (call : Call) (response : ApprovalResponse) : Prop :=
  (call.phase = .waiting ∧ call.channel = [response]) ∨ call.phase = .received response ∨
    call.phase = .applied response ∨ call.phase = .returned (.ok response)

def Call.Unanswered (call : Call) : Prop :=
  call.channel = [] ∧ (call.phase = .waiting ∨ call.phase = .timedOut)

/-- Whether a clear of the session is the last word on its approvals. -/
def clearedStep (s : String) (quiet : Bool) : Event → Bool
  | .cleared s' => if s' = s then true else quiet
  | .taken _ s' response => if s' = s ∧ response.isSessionApproval then false else quiet
  | _ => quiet

def lastCleared (s : String) (log : List Event) : Bool := log.foldl (clearedStep s) false

structure Agreeing (system : System) : Prop where
  grounded : Grounded system
  queued : ∀ s, ∀ entry ∈ system.chain.queue s, ∃ call, system.calls[entry.responseTx]? = some call ∧
    call.request = entry.request ∧ call.Unanswered
  answered : ∀ i s response, .taken i s response ∈ system.log →
    ∃ call, system.calls[i]? = some call ∧ call.Answered response
  returned : ∀ i request result, .returned i request result ∈ system.log →
    ∃ call, system.calls[i]? = some call ∧ call.phase = .returned result
  ended : ∀ i call result, system.calls[i]? = some call → call.phase = .returned result →
    .returned i call.request result ∈ system.log
  clean : ∀ s, lastCleared s system.log = true →
    (∀ command, system.chain.sessionApproved s command = false) ∧
    ∀ call ∈ system.calls, call.request.sessionKey = s → call.grantsSession = false

variable {log new : List Event} {system system' : System} {s : String} {i j : Nat} {call : Call}
  {response : ApprovalResponse} {f : Call → Call}

theorem lastCleared_append : lastCleared s (log ++ new) = new.foldl (clearedStep s) (lastCleared s log) :=
  List.foldl_append

/-- Events that neither clear nor grant leave the last word as it was. -/
theorem lastCleared_quiet (quiet : ∀ event ∈ new, ∀ value, clearedStep s value event = value) :
    lastCleared s (log ++ new) = lastCleared s log := by
  rw [lastCleared_append]
  induction new with
  | nil => rfl
  | cons event new ih =>
    rw [List.foldl_cons,quiet event List.mem_cons_self]
    exact ih fun event member => quiet event (List.mem_cons_of_mem _ member)

theorem lastCleared_of_split {before after : List Event}
    (none : ∀ i response, .taken i s response ∈ after → response.isSessionApproval = false) :
    lastCleared s (before ++ .cleared s :: after) = true := by
  rw [lastCleared_append,List.foldl_cons]
  simp only [clearedStep,if_pos]
  induction after with
  | nil => rfl
  | cons event after ih =>
    have kept : clearedStep s true event = true := by
      cases event with
      | cleared s' => simp [clearedStep]
      | taken i s' response =>
        rw [clearedStep]
        split
        · rename_i granted
          obtain ⟨rfl, granted⟩ := granted
          rw [none i response List.mem_cons_self] at granted
          cases granted
        · rfl
      | arrived | dropped | stored | preApproved | returned => rfl
    rw [List.foldl_cons,kept]
    exact ih fun i response member => none i response (List.mem_cons_of_mem _ member)

/-- A step of one call, as far as the other side can see it. -/
structure Local (system : System) (i : Nat) (call : Call) (f : Call → Call) (new : List Event)
    (system' : System) : Prop where
  calls : system'.calls = system.calls.modify i f
  log : system'.log = system.log ++ new
  request : (f call).request = call.request
  queue : ∀ s, ∀ entry ∈ system'.chain.queue s, entry.responseTx ≠ i → entry ∈ system.chain.queue s
  entry : ∀ s, ∀ entry ∈ system'.chain.queue s, entry.responseTx = i →
    call.request = entry.request ∧ (f call).Unanswered
  answer : ∀ response, call.Answered response → (f call).Answered response
  active : ∀ result, call.phase ≠ .returned result
  untaken : ∀ event ∈ new, ∀ s value, clearedStep s value event = value ∧ ∀ i response, event ≠ .taken i s response
  final : ∀ event ∈ new, ∀ j request result, event = .returned j request result →
    j = i ∧ (f call).phase = .returned result
  ends : ∀ result, (f call).phase = .returned result → .returned i call.request result ∈ new
  sessions : ∀ s command, system'.chain.sessionApproved s command →
    system.chain.sessionApproved s command ∨ s = call.request.sessionKey ∧ call.grantsSession
  grants : (f call).grantsSession → call.grantsSession

theorem Agreeing.local (agreeing : Agreeing system) (grounded : Grounded system')
    (found : system.calls[i]? = some call) (step : Local system i call f new system') :
    Agreeing system' where
  grounded := grounded
  queued s entry member := by
    rw [step.calls]
    by_cases own : entry.responseTx = i
    · obtain ⟨same, waits⟩ := step.entry s entry member own
      rw [own]
      exact ⟨f call, by simp [found], step.request.trans same, waits⟩
    · rw [List.getElem?_modify_ne _ _ (Ne.symm own)]
      exact agreeing.queued s entry (step.queue s entry member own)
  answered j s response member := by
    rw [step.log] at member
    rw [step.calls]
    rcases List.mem_append.mp member with before | fresh
    · obtain ⟨call', found', answered⟩ := agreeing.answered j s response before
      by_cases own : j = i
      · subst own
        obtain rfl := Option.some.inj (found.symm.trans found')
        exact ⟨f call, by simp [found], step.answer response answered⟩
      · exact ⟨call', by rw [List.getElem?_modify_ne _ _ (Ne.symm own)]; exact found', answered⟩
    · exact absurd rfl ((step.untaken _ fresh s true).2 j response)
  returned j request result member := by
    rw [step.log] at member
    rw [step.calls]
    rcases List.mem_append.mp member with before | fresh
    · obtain ⟨call', found', phase⟩ := agreeing.returned j request result before
      by_cases own : j = i
      · subst own
        obtain rfl := Option.some.inj (found.symm.trans found')
        exact absurd phase (step.active result)
      · exact ⟨call', by rw [List.getElem?_modify_ne _ _ (Ne.symm own)]; exact found', phase⟩
    · obtain ⟨rfl, phase⟩ := step.final _ fresh j request result rfl
      exact ⟨f call, by simp [found], phase⟩
  ended j call' result found' phase := by
    rw [step.calls] at found'
    rw [step.log]
    rcases modify_found found' with ⟨rfl, before, there, rfl⟩ | ⟨_, there⟩
    · obtain rfl := Option.some.inj (there.symm.trans found)
      exact List.mem_append_right _ (step.request ▸ step.ends result phase)
    · exact List.mem_append_left _ (agreeing.ended j call' result there phase)
  clean s quiet := by
    rw [step.log,lastCleared_quiet fun event member value => (step.untaken event member s value).1] at quiet
    obtain ⟨unapproved, idle⟩ := agreeing.clean s quiet
    constructor
    · intro command
      rw [← Bool.not_eq_true]
      intro approved
      rcases step.sessions s command approved with before | ⟨own, grants⟩
      · rw [unapproved command] at before
        cases before
      · rw [idle call (List.mem_of_getElem? found) own.symm] at grants
        cases grants
    · intro call' member own
      rw [step.calls] at member
      obtain ⟨j, found'⟩ := List.mem_iff_getElem?.mp member
      rcases modify_found found' with ⟨_, before, there, rfl⟩ | ⟨_, there⟩
      · obtain rfl := Option.some.inj (there.symm.trans found)
        rw [← Bool.not_eq_true]
        intro grants
        have granted := step.grants grants
        rw [idle before (List.mem_of_getElem? found) (step.request ▸ own)] at granted
        cases granted
      · exact idle call' (List.mem_of_getElem? there) own

/-- Only a call that waits unanswered has an entry in a queue. -/
theorem Agreeing.no_entry (agreeing : Agreeing system) (found : system.calls[i]? = some call)
    (gone : ¬ call.Unanswered) {entry : ApprovalEntry} (member : entry ∈ system.chain.queue s) :
    entry.responseTx ≠ i := by
  rintro rfl
  obtain ⟨call', found', _, waits⟩ := agreeing.queued s entry member
  obtain rfl := Option.some.inj (found.symm.trans found')
  exact gone waits

/-- A call without an entry moves on and touches no queue. -/
theorem Agreeing.unqueued (agreeing : Agreeing system) (grounded : Grounded system')
    (found : system.calls[i]? = some call) (gone : ¬ call.Unanswered)
    (calls : system'.calls = system.calls.modify i f) (log : system'.log = system.log ++ new)
    (request : (f call).request = call.request)
    (queues : ∀ s, system'.chain.queue s = system.chain.queue s)
    (answer : ∀ response, call.Answered response → (f call).Answered response)
    (active : ∀ result, call.phase ≠ .returned result)
    (untaken : ∀ event ∈ new, ∀ s value, clearedStep s value event = value ∧
      ∀ i response, event ≠ .taken i s response)
    (final : ∀ event ∈ new, ∀ j request result, event = .returned j request result →
      j = i ∧ (f call).phase = .returned result)
    (ends : ∀ result, (f call).phase = .returned result → .returned i call.request result ∈ new)
    (sessions : ∀ s command, system'.chain.sessionApproved s command →
      system.chain.sessionApproved s command ∨ s = call.request.sessionKey ∧ call.grantsSession)
    (grants : (f call).grantsSession → call.grantsSession) : Agreeing system' := by
  apply agreeing.local grounded found
  refine ⟨calls, log, request, ?_, ?_, answer, active, untaken, final, ends, sessions, grants⟩
  · intro s entry member _
    rwa [queues] at member
  · intro s entry member own
    rw [queues] at member
    exact absurd own (agreeing.no_entry found gone member)

theorem Agreeing.moved {phase : Phase} (agreeing : Agreeing system) (found : system.calls[i]? = some call)
    (moves : Moves call phase) : Agreeing (system.goto i phase) := by
  have step : Step system (.expire i) (system.goto i phase) := .moved found moves
  have grounded := agreeing.grounded.step step
  cases moves with
  | permanentChecked | sessionChecked =>
    apply agreeing.unqueued grounded found
    · rintro ⟨_, waits | gaveUp⟩
      · cases waits
      · cases gaveUp
    · rfl
    · exact (List.append_nil _).symm
    · rfl
    · exact fun _ => rfl
    · rintro response (⟨waits, _⟩ | held | held | held)
      · cases waits
      · cases held
      · cases held
      · cases held
    · exact fun result held => by cases held
    · exact fun event member => by cases member
    · exact fun event member => by cases member
    · exact fun result held => by cases held
    · exact fun s command approved => .inl approved
    · exact id
  | gaveUp =>
    apply agreeing.local grounded found
    constructor
    · rfl
    · exact (List.append_nil _).symm
    · rfl
    · exact fun s entry member _ => member
    · intro s entry member own
      obtain ⟨call', found', same, _⟩ := agreeing.queued s entry member
      rw [own] at found'
      obtain rfl := Option.some.inj (found.symm.trans found')
      exact ⟨same, rfl, .inr rfl⟩
    · rintro response (⟨_, held⟩ | held | held | held)
      · cases held
      · cases held
      · cases held
      · cases held
    · exact fun result held => by cases held
    · exact fun event member => by cases member
    · exact fun event member => by cases member
    · exact fun result held => by cases held
    · exact fun s command approved => .inl approved
    · exact fun grants => by cases grants

/-- A call that has its answer, or needs none, returns. -/
theorem Agreeing.finished {result : Except String ApprovalResponse} (agreeing : Agreeing system)
    (notes : List Event) (grounded : Grounded system') (found : system.calls[i]? = some call)
    (calls : system'.calls = system.calls.modify i fun call => { call with phase := .returned result })
    (log : system'.log = system.log ++ (notes ++ [.returned i call.request result]))
    (queues : ∀ s, system'.chain.queue s = system.chain.queue s)
    (sessions : system'.chain.sessionApprovals = system.chain.sessionApprovals)
    (gone : ¬ call.Unanswered) (active : ∀ result, call.phase ≠ .returned result)
    (noted : ∀ event ∈ notes, ∃ request, event = .preApproved i request)
    (answer : ∀ response, call.Answered response → result = .ok response) : Agreeing system' := by
  have known : ∀ event ∈ notes ++ [.returned i call.request result],
      (∃ request, event = .preApproved i request) ∨ event = .returned i call.request result := by
    intro event member
    rcases List.mem_append.mp member with note | last
    · exact .inl (noted event note)
    · exact .inr (List.mem_singleton.mp last)
  apply agreeing.unqueued grounded found gone calls log
  · rfl
  · exact queues
  · intro response answered
    rw [answer response answered]
    exact .inr (.inr (.inr rfl))
  · exact active
  · intro event member s value
    rcases known event member with ⟨request, rfl⟩ | rfl
    · exact ⟨rfl, fun _ _ taken => by cases taken⟩
    · exact ⟨rfl, fun _ _ taken => by cases taken⟩
  · intro event member j request result' same
    rcases known event member with ⟨request, rfl⟩ | rfl
    · cases same
    · cases same
      exact ⟨rfl, rfl⟩
  · intro result held
    cases held
    exact List.mem_append_right _ List.mem_cons_self
  · intro s command approved
    left
    rwa [ApprovalChain.sessionApproved,sessions] at approved
  · exact fun grants => by cases grants

theorem Agreeing.enqueued (agreeing : Agreeing system) (found : system.calls[i]? = some call)
    (phase : call.phase = .enqueue) :
    Agreeing (((system.withChain (system.chain.enqueue i call.request)).goto i .waiting).record
      [.arrived i call.request]) := by
  have early : ¬ call.phase.Queued := by rw [phase]; exact id
  have empty : call.channel = [] := by
    apply List.eq_nil_iff_forall_not_mem.mpr
    intro response member
    have taken := agreeing.grounded.tracked.messages i call response found (.inl member)
    exact agreeing.grounded.not_arrived found early
      (agreeing.grounded.logged.arrivedFirst (taken_removed taken))
  have gone : ¬ call.Unanswered := by
    rintro ⟨_, waits | gaveUp⟩
    · rw [phase] at waits
      cases waits
    · rw [phase] at gaveUp
      cases gaveUp
  have queue : ∀ s, ∀ entry ∈ (system.chain.enqueue i call.request).queue s,
      entry ∈ system.chain.queue s ∨ entry = ⟨call.request, i⟩ := by
    intro s entry member
    rw [ApprovalChain.enqueue_queue] at member
    split at member
    · subst s
      simpa using member
    · exact .inl member
  apply agreeing.local (f := fun call => { call with phase := .waiting })
    (agreeing.grounded.enqueued found phase) found
  constructor
  · rfl
  · rfl
  · rfl
  · intro s entry member other
    rcases queue s entry member with before | rfl
    · exact before
    · exact absurd rfl other
  · intro s entry member own
    rcases queue s entry member with before | rfl
    · exact absurd own (agreeing.no_entry found gone before)
    · exact ⟨rfl, empty, .inl rfl⟩
  · rintro response (⟨held, _⟩ | held | held | held)
    all_goals
      rw [phase] at held
      cases held
  · intro result held
    rw [phase] at held
    cases held
  · intro event member s value
    obtain rfl := List.mem_singleton.mp member
    exact ⟨rfl, fun _ _ taken => by cases taken⟩
  · intro event member j request result same
    obtain rfl := List.mem_singleton.mp member
    cases same
  · exact fun result held => by cases held
  · exact fun s command approved => .inl approved
  · intro grants
    simp [Call.grantsSession,empty] at grants

theorem Agreeing.received {rest : List ApprovalResponse} (agreeing : Agreeing system)
    (found : system.calls[i]? = some call) (phase : call.phase = .waiting)
    (message : call.channel = response :: rest) :
    Agreeing { system with calls := system.calls.modify i fun call =>
      { call with phase := .received response, channel := rest } } := by
  apply agreeing.unqueued (f := fun call => { call with phase := .received response, channel := rest })
    (agreeing.grounded.received found message) found
  · rintro ⟨empty, _⟩
    rw [message] at empty
    cases empty
  · rfl
  · exact (List.append_nil _).symm
  · rfl
  · exact fun _ => rfl
  · rintro other (⟨_, held⟩ | held | held | held)
    · rw [message] at held
      cases held
      exact .inr (.inl rfl)
    all_goals
      rw [phase] at held
      cases held
  · intro result held
    rw [phase] at held
    cases held
  · exact fun event member => by cases member
  · exact fun event member => by cases member
  · exact fun result held => by cases held
  · exact fun s command approved => .inl approved
  · intro grants
    have grants : response.isSessionApproval = true := grants
    simp [Call.grantsSession,phase,message,grants]

theorem Agreeing.applied (agreeing : Agreeing system) (found : system.calls[i]? = some call)
    (phase : call.phase = .received response) :
    Agreeing (((system.withChain (system.chain.applyApprovalScope call.request.sessionKey
      call.request.command response)).goto i (.applied response)).record
        (storing i call.request response)) := by
  have stores : ∀ event ∈ storing i call.request response, ∃ scope, event = .stored i call.request scope := by
    intro event member
    rw [storing] at member
    split at member
    · exact ⟨response.scope, List.mem_singleton.mp member⟩
    · cases member
  apply agreeing.unqueued (f := fun call => { call with phase := .applied response })
    (agreeing.grounded.applied found phase) found
  · rintro ⟨_, waits | gaveUp⟩
    · rw [phase] at waits
      cases waits
    · rw [phase] at gaveUp
      cases gaveUp
  · rfl
  · rfl
  · rfl
  · intro s
    change (ApprovalChain.pending _ s).getD [] = _
    rw [System.record,System.goto,System.withChain,ApprovalChain.applyApprovalScope_pending]
    rfl
  · rintro other (⟨held, _⟩ | held | held | held)
    all_goals
      rw [phase] at held
      cases held
    exact .inr (.inr (.inl rfl))
  · intro result held
    rw [phase] at held
    cases held
  · intro event member s value
    obtain ⟨scope, rfl⟩ := stores event member
    exact ⟨rfl, fun _ _ taken => by cases taken⟩
  · intro event member j request result same
    obtain ⟨scope, rfl⟩ := stores event member
    cases same
  · exact fun result held => by cases held
  · intro s command approved
    apply (ApprovalChain.applyApprovalScope_session approved).imp_right
    rintro ⟨own, _, decided, granted⟩
    exact ⟨own, by simp [Call.grantsSession,phase,ApprovalResponse.isSessionApproval,decided,granted]⟩
  · exact fun grants => by cases grants

theorem Grounded.entry_request (grounded : Grounded system) {entry : ApprovalEntry}
    (member : entry ∈ system.chain.queue s) :
    ∃ call, system.calls[entry.responseTx]? = some call ∧ call.request.sessionKey = s ∧ call.phase.Queued := by
  apply grounded.waiting_request
  rw [← grounded.logged.queued]
  exact List.mem_map_of_mem member

theorem Agreeing.withdrew (agreeing : Agreeing system) (found : system.calls[i]? = some call)
    (phase : call.phase = .timedOut) :
    Agreeing (((system.withChain (system.chain.removePendingRequest call.request.sessionKey
      call.request.requestId)).goto i .withdrawn).record
        ((dropping system.chain call.request).map .dropped)) := by
  have queue : ∀ s, ∀ entry ∈ (system.chain.removePendingRequest call.request.sessionKey
      call.request.requestId).queue s, entry ∈ system.chain.queue s ∧ entry.responseTx ≠ i := by
    intro s entry member
    rw [ApprovalChain.removePendingRequest_queue] at member
    split at member
    · subst s
      obtain ⟨member, other⟩ := List.mem_filter.mp member
      refine ⟨member, fun own => ?_⟩
      obtain ⟨call', found', same, _⟩ := agreeing.queued _ entry member
      rw [own] at found'
      obtain rfl := Option.some.inj (found.symm.trans found')
      simp [same] at other
    · rename_i other
      refine ⟨member, fun own => other ?_⟩
      obtain ⟨call', found', session, _⟩ := agreeing.grounded.entry_request member
      rw [own] at found'
      obtain rfl := Option.some.inj (found.symm.trans found')
      exact session.symm
  apply agreeing.local (f := fun call => { call with phase := .withdrawn })
    (agreeing.grounded.withdrew found) found
  constructor
  · rfl
  · rfl
  · rfl
  · exact fun s entry member _ => (queue s entry member).1
  · exact fun s entry member own => absurd own (queue s entry member).2
  · rintro other (⟨held, _⟩ | held | held | held)
    all_goals
      rw [phase] at held
      cases held
  · intro result held
    rw [phase] at held
    cases held
  · intro event member s value
    obtain ⟨call', _, rfl⟩ := List.mem_map.mp member
    exact ⟨rfl, fun _ _ taken => by cases taken⟩
  · intro event member j request result same
    obtain ⟨call', _, rfl⟩ := List.mem_map.mp member
    cases same
  · exact fun result held => by cases held
  · intro s command approved
    left
    rw [ApprovalChain.sessionApproved] at approved ⊢
    rw [← (system.chain.removePendingRequest_approvals call.request.sessionKey call.request.requestId).1]
    exact approved
  · exact fun grants => by cases grants

/-- What the sends of one locked section put into a channel. -/
theorem deliver_all (sent : List Sent) (calls : List Call) (j : Nat) :
    (sent.foldl deliver calls)[j]? = calls[j]?.map fun call => { call with
      channel := call.channel ++ (sent.filter fun message => message.responseTx = j).map (·.response) } := by
  induction sent generalizing calls with
  | nil => simp
  | cons message sent ih =>
    rw [List.foldl_cons,ih,deliver]
    by_cases own : message.responseTx = j
    · subst own
      simp [Function.comp_def]
    · simp [own]

theorem filter_receiver {front : List ApprovalEntry} {entry : ApprovalEntry}
    (nodup : (front.map (·.responseTx)).Nodup) (member : entry ∈ front) :
    front.filter (fun other => other.responseTx = entry.responseTx) = [entry] := by
  induction front with
  | nil => cases member
  | cons first front ih =>
    obtain ⟨fresh, nodup⟩ := List.nodup_cons.mp nodup
    rcases List.mem_cons.mp member with rfl | member
    · have none : front.filter (fun other => other.responseTx = entry.responseTx) = [] := by
        apply List.filter_eq_nil_iff.mpr
        intro other there same
        exact fresh (List.mem_map.mpr ⟨other, there, of_decide_eq_true same⟩)
      simp [none]
    · have other : first.responseTx ≠ entry.responseTx := fun same =>
        fresh (List.mem_map.mpr ⟨entry, member, same.symm⟩)
      simp [other,ih nodup member]

section Sent

variable {front : List ApprovalEntry} {after : ApprovalChain} {decision : ApprovalDecision}
  {scope : ApprovalScope} {now : Nat} {entry : ApprovalEntry}

/-- A call none of whose entries was popped. -/
theorem sent_other (untouched : j ∉ front.map (·.responseTx)) :
    ((front.map (ApprovalEntry.send decision scope now)).foldl deliver system.calls)[j]? =
      system.calls[j]? := by
  have none : (front.map (ApprovalEntry.send decision scope now)).filter
      (fun message => message.responseTx = j) = [] := by
    apply List.filter_eq_nil_iff.mpr
    intro message member own
    obtain ⟨entry, there, rfl⟩ := List.mem_map.mp member
    exact untouched (List.mem_map.mpr ⟨entry, there, of_decide_eq_true own⟩)
  rw [deliver_all,none]
  simp

/-- A call whose entry was popped has the response as the last message. -/
theorem sent_own (nodup : (front.map (·.responseTx)).Nodup) (member : entry ∈ front)
    (found : system.calls[entry.responseTx]? = some call) :
    ((front.map (ApprovalEntry.send decision scope now)).foldl deliver system.calls)[entry.responseTx]? =
      some { call with channel := call.channel ++ [(entry.send decision scope now).response] } := by
  have one : (front.map (ApprovalEntry.send decision scope now)).filter
      (fun message => message.responseTx = entry.responseTx) = [entry.send decision scope now] := by
    rw [List.filter_map]
    exact congrArg _ (filter_receiver nodup member)
  rw [deliver_all,one,found]
  rfl

/-- A popped approval for the session is the last word on it. -/
theorem lastCleared_granted (granted : decision = .approved ∧ scope = .session) (some : front ≠ []) :
    lastCleared s (log ++ (front.map (ApprovalEntry.send decision scope now)).map (Sent.event s)) = false := by
  rw [lastCleared_append]
  generalize lastCleared s log = quiet
  induction front generalizing quiet with
  | nil => exact absurd rfl some
  | cons first front ih =>
    have last : clearedStep s quiet (Sent.event s (first.send decision scope now)) = false := by
      simp [clearedStep,Sent.event,ApprovalResponse.isSessionApproval,ApprovalEntry.send,granted]
    rw [List.map_cons,List.map_cons,List.foldl_cons,last]
    by_cases more : front = []
    · subst more
      rfl
    · exact ih more false

theorem Agreeing.sent_clean {s' : String} (agreeing : Agreeing system)
    (takes : Takes system.chain s front after)
    (quiet : lastCleared s' (system.send s after
      (front.map (ApprovalEntry.send decision scope now))).log = true) :
    (∀ command, after.sessionApproved s' command = false) ∧
    ∀ call ∈ (front.map (ApprovalEntry.send decision scope now)).foldl deliver system.calls,
      call.request.sessionKey = s' → call.grantsSession = false := by
  -- An approval popped for this very session would be the last word on it.
  have ungranted : front ≠ [] → s' = s → ¬ (decision = .approved ∧ scope = .session) := by
    rintro some rfl granted
    exact Bool.false_ne_true ((lastCleared_granted granted some).symm.trans quiet)
  have before : lastCleared s' system.log = true := by
    rw [← quiet]
    apply (lastCleared_quiet _).symm
    intro event member value
    obtain ⟨message, there, rfl⟩ := List.mem_map.mp member
    obtain ⟨entry, popped, rfl⟩ := List.mem_map.mp there
    by_cases own : s = s'
    · have refused := ungranted (List.ne_nil_of_mem popped) own.symm
      simp [clearedStep,ApprovalEntry.send,ApprovalResponse.isSessionApproval,refused]
    · simp [clearedStep,own]
  obtain ⟨unapproved, idle⟩ := agreeing.clean s' before
  constructor
  · intro command
    rw [ApprovalChain.sessionApproved,takes.sessions]
    exact unapproved command
  · intro call' member own
    obtain ⟨j, found⟩ := List.mem_iff_getElem?.mp member
    by_cases popped : j ∈ front.map (·.responseTx)
    · obtain ⟨entry, there, rfl⟩ := List.mem_map.mp popped
      rw [deliver_all] at found
      obtain ⟨call, old, rfl⟩ := Option.map_eq_some_iff.mp found
      obtain ⟨call', old', session, _⟩ := agreeing.grounded.entry_request
        (takes.split ▸ List.mem_append_left _ there)
      obtain rfl := Option.some.inj (old.symm.trans old')
      have refused := ungranted (List.ne_nil_of_mem there) (own.symm.trans session)
      have quietCall := idle call (List.mem_of_getElem? old) own
      rw [Call.grantsSession] at quietCall ⊢
      cases phase : call.phase with
      | waiting =>
        simp only [phase] at quietCall
        simp only [List.any_append,quietCall,Bool.false_or]
        apply List.any_eq_false.mpr
        intro response sent
        obtain ⟨message, kept, rfl⟩ := List.mem_map.mp sent
        obtain ⟨other, _, rfl⟩ := List.mem_map.mp (List.mem_filter.mp kept).1
        exact Bool.not_eq_true _ ▸ decide_eq_false refused
      | received response =>
        simp only [phase] at quietCall
        exact quietCall
      | checkPermanent | checkSession | enqueue | applied | timedOut | withdrawn | returned => rfl
    · rw [sent_other popped] at found
      exact idle call' (List.mem_of_getElem? found) own

theorem Agreeing.sent (agreeing : Agreeing system) (takes : Takes system.chain s front after)
    (decision : ApprovalDecision) (scope : ApprovalScope) (now : Nat)
    (awake : ∀ entry ∈ front, ∀ call ∈ system.calls[entry.responseTx]?, call.gaveUp = false) :
    Agreeing (system.send s after (front.map (ApprovalEntry.send decision scope now))) := by
  have split : waiting s system.log = front.map (·.responseTx) ++ (after.queue s).map (·.responseTx) := by
    rw [← agreeing.grounded.logged.queued,takes.split,List.map_append]
  have nodup : (front.map (·.responseTx) ++ (after.queue s).map (·.responseTx)).Nodup :=
    split ▸ agreeing.grounded.waiting_nodup
  have inQueue : ∀ entry ∈ front, entry ∈ system.chain.queue s := fun entry member =>
    takes.split ▸ List.mem_append_left _ member
  have alone : (front.map (·.responseTx)).Nodup := (List.nodup_append.mp nodup).1
  have waits : ∀ i ∈ front.map (·.responseTx), i ∈ waiting s system.log := fun i member =>
    split ▸ List.mem_append_left _ member
  constructor
  · exact agreeing.grounded.sent takes decision scope now
  · intro s' entry member
    have kept : entry ∈ system.chain.queue s' ∧ entry.responseTx ∉ front.map (·.responseTx) := by
      by_cases own : s' = s
      · subst own
        have apart := (List.nodup_append.mp nodup).2.2
        exact ⟨takes.split ▸ List.mem_append_right _ member, fun inside =>
          apart _ inside _ (List.mem_map_of_mem member) rfl⟩
      · have same : after.queue s' = system.chain.queue s' := by
          rw [ApprovalChain.queue,takes.others s' own]
          rfl
        change entry ∈ after.queue s' at member
        rw [same] at member
        refine ⟨member, fun inside => own ?_⟩
        have there : entry.responseTx ∈ waiting s' system.log := by
          rw [← agreeing.grounded.logged.queued]
          exact List.mem_map_of_mem member
        exact agreeing.grounded.waiting_session there (waits _ inside)
    rw [System.send,sent_other kept.2]
    exact agreeing.queued s' entry kept.1
  · intro i s' response member
    rcases List.mem_append.mp member with before | fresh
    · have untouched : i ∉ front.map (·.responseTx) := fun inside => by
        have there := waits i inside
        simp [waiting,taken_removed before] at there
      rw [System.send,sent_other untouched]
      exact agreeing.answered i s' response before
    · obtain ⟨message, there, same⟩ := List.mem_map.mp fresh
      obtain ⟨entry, popped, rfl⟩ := List.mem_map.mp there
      cases same
      obtain ⟨call, found, _, empty, phase⟩ := agreeing.queued s entry (inQueue entry popped)
      have waiting : call.phase = .waiting := phase.resolve_right fun gaveUp => by
        have asleep := awake entry popped call found
        simp [Call.gaveUp,gaveUp] at asleep
      exact ⟨_, sent_own alone popped found, .inl ⟨waiting, by simp [empty]⟩⟩
  · intro i request result member
    have before : .returned i request result ∈ system.log := by
      rcases List.mem_append.mp member with before | fresh
      · exact before
      · obtain ⟨message, _, same⟩ := List.mem_map.mp fresh
        cases same
    obtain ⟨call, found, phase⟩ := agreeing.returned i request result before
    rw [System.send,deliver_all,found]
    exact ⟨_, rfl, phase⟩
  · intro i call' result found phase
    rw [System.send,deliver_all] at found
    obtain ⟨call, old, rfl⟩ := Option.map_eq_some_iff.mp found
    exact List.mem_append_left _ (agreeing.ended i call result old phase)
  · exact fun s' quiet => agreeing.sent_clean takes quiet

end Sent

theorem Agreeing.cleared (agreeing : Agreeing system)
    (idle : ∀ call ∈ system.calls, call.request.sessionKey = s → call.grantsSession = false) :
    Agreeing ((system.withChain (system.chain.clearSessionApprovals s)).record [.cleared s]) where
  grounded := agreeing.grounded.cleared s
  queued := agreeing.queued
  answered i s' response member := agreeing.answered i s' response (by simpa [System.record,System.withChain] using member)
  returned i request result member :=
    agreeing.returned i request result (by simpa [System.record,System.withChain] using member)
  ended i call result found phase := List.mem_append_left _ (agreeing.ended i call result found phase)
  clean s' quiet := by
    by_cases own : s' = s
    · subst own
      constructor
      · intro command
        simp [System.record,System.withChain,ApprovalChain.clearSessionApprovals,
          ApprovalChain.sessionApproved]
      · exact idle
    · have before : lastCleared s' system.log = true := by
        rw [← quiet]
        apply (lastCleared_quiet _).symm
        intro event member value
        obtain rfl := List.mem_singleton.mp member
        simp [clearedStep,Ne.symm own]
      obtain ⟨unapproved, idle⟩ := agreeing.clean s' before
      refine ⟨fun command => ?_, idle⟩
      rw [← Bool.not_eq_true]
      intro approved
      have kept := (ApprovalChain.clearSessionApprovals_session approved).2
      rw [unapproved command] at kept
      cases kept

theorem Agreeing.began (agreeing : Agreeing system) (request : ApprovalRequest) :
    Agreeing { system with calls := system.calls ++ [⟨request, .checkPermanent, []⟩] } := by
  have kept : ∀ {j call}, system.calls[j]? = some call →
      (system.calls ++ [⟨request, .checkPermanent, []⟩])[j]? = some call := fun found =>
    (List.getElem?_append_left (List.getElem?_eq_some_iff.mp found).1).trans found
  constructor
  · exact agreeing.grounded.began request
  · intro s entry member
    obtain ⟨call, found, holds⟩ := agreeing.queued s entry member
    exact ⟨call, kept found, holds⟩
  · intro i s response member
    obtain ⟨call, found, holds⟩ := agreeing.answered i s response member
    exact ⟨call, kept found, holds⟩
  · intro i request result member
    obtain ⟨call, found, holds⟩ := agreeing.returned i request result member
    exact ⟨call, kept found, holds⟩
  · intro i call result found phase
    rcases append_found found with old | rfl
    · exact agreeing.ended i call result old phase
    · cases phase
  · intro s quiet
    obtain ⟨unapproved, idle⟩ := agreeing.clean s quiet
    refine ⟨unapproved, fun call member own => ?_⟩
    rcases List.mem_append.mp member with old | fresh
    · exact idle call old own
    · obtain rfl := List.mem_singleton.mp fresh
      rfl

theorem Agreeing.step {action : Action} (agreeing : Agreeing system) (calm : Undisturbed system action)
    (step : Step system action system') : Agreeing system' := by
  have grounded := agreeing.grounded.step step
  cases step with
  | idle => exact agreeing
  | began => exact agreeing.began _
  | moved found moves => exact agreeing.moved found moves
  | passed found early approved =>
    apply agreeing.finished [.preApproved _ _] grounded found rfl (List.append_assoc _ _ _) (fun _ => rfl) rfl
    · rintro ⟨_, phase⟩
      rcases early with early | early <;> simp [early] at phase
    · rcases early with early | early <;> simp [early]
    · exact fun event member => ⟨_, List.mem_singleton.mp member⟩
    · intro response answered
      rcases early with early | early <;> simp [Call.Answered,early] at answered
  | enqueued found phase => exact agreeing.enqueued found phase
  | received found phase message => exact agreeing.received found phase message
  | applied found phase => exact agreeing.applied found phase
  | finished found phase =>
    apply agreeing.finished [] grounded found rfl rfl (fun _ => rfl) rfl
    · rintro ⟨_, waits⟩
      simp [phase] at waits
    · simp [phase]
    · exact fun event member => by cases member
    · intro response answered
      simp only [Call.Answered,phase] at answered
      simpa using answered
  | withdrew found phase => exact agreeing.withdrew found phase
  | expired found phase =>
    apply agreeing.finished [] grounded found rfl rfl (fun _ => rfl) rfl
    · rintro ⟨_, waits⟩
      simp [phase] at waits
    · simp [phase]
    · exact fun event member => by cases member
    · intro response answered
      simp [Call.Answered,phase] at answered
  | sent decision scope now takes => exact agreeing.sent takes decision scope now calm.1
  | cleared => exact agreeing.cleared (calm.2 _ rfl)

theorem Agreeing.start : Agreeing System.start where
  grounded := .start
  queued _ _ member := by cases member
  answered _ _ _ member := by cases member
  returned _ _ _ member := by cases member
  ended _ _ _ found := by cases found
  clean _ quiet := by cases quiet

theorem Agreeing.run {actions : List Action} (agreeing : Agreeing system) (calm : Calm system actions) :
    Agreeing (system.run actions) := by
  induction actions generalizing system with
  | nil => exact agreeing
  | cons action actions ih => exact ih (agreeing.step calm.1 (system.step_cases action)) calm.2

theorem step_applied (found : system.calls[i]? = some call) (phase : call.phase = .applied response) :
    .returned i call.request (.ok response) ∈ (system.step (.proceed i 0)).log := by
  rw [System.step,found]
  simp only [System.proceed,phase]
  exact List.mem_append_right _ List.mem_cons_self

theorem step_received (found : system.calls[i]? = some call) (phase : call.phase = .received response) :
    (system.step (.proceed i 0)).calls[i]? = some { call with phase := .applied response } := by
  rw [System.step,found]
  simp [System.proceed,phase,System.record,System.goto,System.withChain,found]

theorem step_waiting (found : system.calls[i]? = some call) (phase : call.phase = .waiting)
    (message : call.channel = [response]) :
    (system.step (.proceed i 0)).calls[i]? = some { call with phase := .received response, channel := [] } := by
  rw [System.step,found]
  simp [System.proceed,phase,message,found]

/-- A call with its answer in hand gets to the end of `request_approval` on its own. -/
theorem Agreeing.returns (agreeing : Agreeing system) (found : system.calls[i]? = some call)
    (answered : call.Answered response) :
    ∃ steps request, (∀ action ∈ steps, ∃ now, action = .proceed i now) ∧
      .returned i request (.ok response) ∈ (system.run steps).log := by
  have own : ∀ count, ∀ action ∈ List.replicate count (Action.proceed i 0), ∃ now, action = .proceed i now :=
    fun count action member => ⟨0, List.eq_of_mem_replicate member⟩
  rcases answered with ⟨waits, message⟩ | held | held | held
  · have first := step_waiting found waits message
    have second := step_received first rfl
    exact ⟨List.replicate 3 (.proceed i 0), _, own 3, step_applied second rfl⟩
  · have first := step_received found held
    exact ⟨List.replicate 2 (.proceed i 0), _, own 2, step_applied first rfl⟩
  · exact ⟨List.replicate 1 (.proceed i 0), _, own 1, step_applied found held⟩
  · exact ⟨[], _, own 0, agreeing.ended i call _ found held⟩

theorem operator_and_requester_agree (actions : List Action) (calm : Calm .start actions) :
    Agreed (System.start.run actions) := by
  have agreeing := Agreeing.start.run calm
  constructor
  · intro i s response taken
    obtain ⟨call, found, answered⟩ := agreeing.answered i s response taken
    refine ⟨?_, agreeing.returns found answered⟩
    intro request result returned
    obtain ⟨call', found', phase⟩ := agreeing.returned i request result returned
    obtain rfl := Option.some.inj (found.symm.trans found')
    simp only [Call.Answered,phase] at answered
    simpa using answered
  · intro before s after split none command
    apply (agreeing.clean s _).1 command
    rw [split]
    exact lastCleared_of_split none

def sampleRequest : ApprovalRequest := ⟨"approval_1", "session-1", "rm -rf /", "danger", 0, 300⟩

/-- One call up to its wait. -/
def queueRequest (i : Nat) : List Action :=
  [.requestApproval sampleRequest, .proceed i 0, .proceed i 0, .proceed i 0]

/-- The request is approved for its session, the session is cleared afterwards. -/
theorem operator_and_requester_agree_in_order :
    Agreed (System.start.run (queueRequest 0 ++
      [.resolveApproval "session-1" .approved .session false 5, .proceed 0 6, .proceed 0 6, .proceed 0 6,
        .clearSessionApprovals "session-1"])) :=
  operator_and_requester_agree _ (by decide)

/-- The call gives up, and its entry is popped before it removes it. -/
def lateAnswer : List Action :=
  queueRequest 0 ++
    ([.expire 0, .resolveApproval "session-1" .approved .once false 5, .proceed 0 6, .proceed 0 6] : List Action)

/-- The session is cleared between the send of an approval and the write of its scope. -/
def lateScope : List Action :=
  queueRequest 0 ++ ([.resolveApproval "session-1" .approved .session false 5, .proceed 0 6,
    .clearSessionApprovals "session-1", .proceed 0 6] : List Action)

theorem late_steps_disagree :
    ¬ Agreed (System.start.run lateAnswer) ∧ ¬ Agreed (System.start.run lateScope) := by
  constructor
  · intro agreed
    have taken : .taken 0 "session-1" ⟨"approval_1", .approved, .once, 5⟩ ∈ (System.start.run lateAnswer).log :=
      .tail _ (.head _)
    have returned : .returned 0 sampleRequest (.error "Approval request timed out") ∈
        (System.start.run lateAnswer).log := .tail _ (.tail _ (.head _))
    have same := (agreed.answered _ _ _ taken).1 _ _ returned
    cases same
  · intro agreed
    have split : (System.start.run lateScope).log =
        [.arrived 0 sampleRequest, .taken 0 "session-1" ⟨"approval_1", .approved, .session, 5⟩] ++
          .cleared "session-1" :: [.stored 0 sampleRequest .session] := rfl
    have clean := agreed.cleared _ _ _ split (by
      intro i response member
      cases member with | tail _ rest => cases rest) "rm -rf /"
    cases clean

end Zaion.Approval
