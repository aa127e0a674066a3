import Zaion.Lib.Trace
import Zaion.Approval.Chain
import Mathlib.Data.List.Nodup

/-! No approval without a decision. The log of a run is read backwards: a call that returns
`Approved` was popped by an approving resolution of its session, or found an approval that an
earlier request had brought. -/
namespace Zaion.Approval

open Lib

/-- Calls queued in a session, in the order they came. -/
def arrivals (sessionKey : String) (log : List Event) : List Nat :=
  log.filterMap fun
    | .arrived call request => if request.sessionKey = sessionKey then some call else none
    | _ => none

def arrivedCalls (log : List Event) : List Nat :=
  log.filterMap fun
    | .arrived call _ => some call
    | _ => none

/-- Calls whose entry left a queue. -/
def removed (log : List Event) : List Nat :=
  log.filterMap fun
    | .taken call _ _ => some call
    | .dropped call => some call
    | _ => none

/-- Calls of a session that arrived and were not removed, in arrival order. -/
def waiting (sessionKey : String) (log : List Event) : List Nat :=
  (arrivals sessionKey log).filter fun call => call ∉ removed log

/-- The request was resolved as approved with this scope, and the approval was stored. -/
def GrantedBy (before : List Event) (call : Nat) (request : ApprovalRequest) (scope : ApprovalScope) : Prop :=
  .arrived call request ∈ before ∧ .stored call request scope ∈ before ∧
    ∃ response, .taken call request.sessionKey response ∈ before ∧
      response.decision = .approved ∧ response.scope = scope

/-- Another request for the same command brought a permanent approval, or one for the session. -/
def Granted (before : List Event) (call : Nat) (request : ApprovalRequest) : Prop :=
  ∃ earlier request', earlier ≠ call ∧ request'.command = request.command ∧
    (GrantedBy before earlier request' .permanent ∨
      request'.sessionKey = request.sessionKey ∧ GrantedBy before earlier request' .session)

/-- What an event needs before it. -/
def Warranted (before : List Event) : Event → Prop
  | .returned call request (.ok response) => response.decision = .approved →
    .taken call request.sessionKey response ∈ before ∨ .preApproved call request ∈ before
  | .preApproved call request => Granted before call request
  | .taken call sessionKey _ => (waiting sessionKey before).head? = some call
  | _ => True

/-- The call has passed its place in `request_approval` where it queues itself. -/
def Phase.Queued : Phase → Prop
  | .checkPermanent | .checkSession | .enqueue => False
  | _ => True

/-- The call has the response, in its channel or in hand. -/
def Call.Has (call : Call) (response : ApprovalResponse) : Prop :=
  response ∈ call.channel ∨ call.phase = .received response ∨ call.phase = .applied response

/-- What the maps hold, against the log. -/
structure Logged (chain : ApprovalChain) (log : List Event) : Prop where
  queued : ∀ s, (chain.queue s).map (·.responseTx) = waiting s log
  arrivedOnce : (arrivedCalls log).Nodup
  removedOnce : (removed log).Nodup
  arrivedFirst : removed log ⊆ arrivedCalls log
  permanents : ∀ command, chain.permanentlyApproved command → ∃ earlier request,
    request.command = command ∧ GrantedBy log earlier request .permanent
  sessions : ∀ s command, chain.sessionApproved s command → ∃ earlier request,
    request.command = command ∧ request.sessionKey = s ∧ GrantedBy log earlier request .session
  warranted : Justified Warranted log

/-- Where the calls stand, against the log. -/
structure Tracked (calls : List Call) (log : List Event) : Prop where
  known : ∀ i request, .arrived i request ∈ log →
    ∃ call, calls[i]? = some call ∧ call.request = request ∧ call.phase.Queued
  messages : ∀ i call response, calls[i]? = some call → call.Has response →
    .taken i call.request.sessionKey response ∈ log

structure Grounded (system : System) : Prop where
  logged : Logged system.chain system.log
  tracked : Tracked system.calls system.log

variable {log new : List Event} {calls : List Call} {chain after : ApprovalChain} {system : System}
  {s sessionKey : String} {i j : Nat} {call : Call} {request : ApprovalRequest}
  {response : ApprovalResponse} {scope : ApprovalScope}

theorem mem_arrivals : i ∈ arrivals s log ↔ ∃ request, .arrived i request ∈ log ∧ request.sessionKey = s := by
  simp only [arrivals,List.mem_filterMap]
  constructor
  · rintro ⟨event, member, found⟩
    cases event with
    | arrived call request =>
      simp only [Option.ite_none_right_eq_some,Option.some.injEq] at found
      obtain ⟨own, rfl⟩ := found
      exact ⟨request, member, own⟩
    | taken | dropped | stored | preApproved | returned | cleared => cases found
  · rintro ⟨request, member, own⟩
    exact ⟨_, member, by simp [own]⟩

theorem mem_arrivedCalls : i ∈ arrivedCalls log ↔ ∃ request, .arrived i request ∈ log := by
  simp only [arrivedCalls,List.mem_filterMap]
  constructor
  · rintro ⟨event, member, found⟩
    cases event with
    | arrived call request =>
      cases found
      exact ⟨request, member⟩
    | taken | dropped | stored | preApproved | returned | cleared => cases found
  · rintro ⟨request, member⟩
    exact ⟨_, member, rfl⟩

theorem taken_removed (member : .taken i s response ∈ log) : i ∈ removed log :=
  List.mem_filterMap.mpr ⟨_, member, rfl⟩

theorem arrivals_append : arrivals s (log ++ new) = arrivals s log ++ arrivals s new := List.filterMap_append

theorem arrivedCalls_append : arrivedCalls (log ++ new) = arrivedCalls log ++ arrivedCalls new :=
  List.filterMap_append

theorem removed_append : removed (log ++ new) = removed log ++ removed new := List.filterMap_append

theorem arrivals_sublist : (arrivals s log).Sublist (arrivedCalls log) := by
  induction log with
  | nil => exact List.Sublist.refl _
  | cons event log ih =>
    cases event with
    | arrived call request =>
      by_cases own : request.sessionKey = s
      · simpa [arrivals,arrivedCalls,own] using ih
      · simpa [arrivals,arrivedCalls,own] using ih.cons call
    | taken | dropped | stored | preApproved | returned | cleared =>
      simpa [arrivals,arrivedCalls] using ih

theorem arrivals_none (none : arrivedCalls new = []) : arrivals s new = [] :=
  List.sublist_nil.mp (none ▸ arrivals_sublist)

theorem waiting_sublist : (waiting s log).Sublist (arrivedCalls log) :=
  List.filter_sublist.trans arrivals_sublist

/-- Events that queue nothing only take from what waits. -/
theorem waiting_append (none : arrivedCalls new = []) :
    waiting s (log ++ new) = (waiting s log).filter fun call => call ∉ removed new := by
  rw [waiting,waiting,arrivals_append,arrivals_none none,List.append_nil,removed_append,List.filter_filter]
  apply List.filter_congr
  intro call _
  simp [Bool.and_comm]

theorem waiting_quiet (none : arrivedCalls new = []) (kept : removed new = []) :
    waiting s (log ++ new) = waiting s log := by
  rw [waiting_append none,kept]
  simp

theorem GrantedBy.mono (granted : GrantedBy log i request scope) (grows : log ⊆ new) :
    GrantedBy new i request scope := by
  obtain ⟨arrived, stored, response, taken, decided⟩ := granted
  exact ⟨grows arrived, grows stored, response, grows taken, decided⟩

theorem Logged.quiet (logged : Logged chain log) (none : arrivedCalls new = []) (kept : removed new = [])
    (queues : ∀ s, after.queue s = chain.queue s)
    (permanents : ∀ command, after.permanentlyApproved command → chain.permanentlyApproved command ∨
      ∃ earlier request, request.command = command ∧ GrantedBy (log ++ new) earlier request .permanent)
    (sessions : ∀ s command, after.sessionApproved s command → chain.sessionApproved s command ∨
      ∃ earlier request, request.command = command ∧ request.sessionKey = s ∧
        GrantedBy (log ++ new) earlier request .session)
    (warranted : Justified Warranted (log ++ new)) : Logged after (log ++ new) where
  queued s := by rw [queues,waiting_quiet none kept,logged.queued]
  arrivedOnce := by rw [arrivedCalls_append,none,List.append_nil]; exact logged.arrivedOnce
  removedOnce := by rw [removed_append,kept,List.append_nil]; exact logged.removedOnce
  arrivedFirst := by
    rw [removed_append,kept,arrivedCalls_append,none,List.append_nil,List.append_nil]
    exact logged.arrivedFirst
  permanents command approved := by
    rcases permanents command approved with before | granted
    · obtain ⟨earlier, request, same, granted⟩ := logged.permanents command before
      exact ⟨earlier, request, same, granted.mono (List.subset_append_left _ _)⟩
    · exact granted
  sessions s command approved := by
    rcases sessions s command approved with before | granted
    · obtain ⟨earlier, request, same, own, granted⟩ := logged.sessions s command before
      exact ⟨earlier, request, same, own, granted.mono (List.subset_append_left _ _)⟩
    · exact granted
  warranted := warranted

/-- The maps of the approvals stay; only the queues and the history may change. -/
structure SameApprovals (chain after : ApprovalChain) : Prop where
  permanents : after.permanentApprovals = chain.permanentApprovals
  sessions : after.sessionApprovals = chain.sessionApprovals

theorem SameApprovals.permanent (same : SameApprovals chain after) (command : String) :
    after.permanentlyApproved command = chain.permanentlyApproved command := by
  rw [ApprovalChain.permanentlyApproved,same.permanents]; rfl

theorem SameApprovals.session (same : SameApprovals chain after) (s command : String) :
    after.sessionApproved s command = chain.sessionApproved s command := by
  rw [ApprovalChain.sessionApproved,same.sessions]; rfl

/-- A call returns, or does so at once: neither touches a queue or an approval. -/
theorem Logged.silent (logged : Logged chain log) (none : arrivedCalls new = []) (kept : removed new = [])
    (queues : ∀ s, after.queue s = chain.queue s) (same : SameApprovals chain after)
    (warranted : Justified Warranted (log ++ new)) : Logged after (log ++ new) := by
  apply logged.quiet none kept queues _ _ warranted
  · intro command approved
    exact .inl (same.permanent command ▸ approved)
  · intro s command approved
    exact .inl (same.session s command ▸ approved)

theorem Logged.enqueued (logged : Logged chain log) (fresh : i ∉ arrivedCalls log)
    (request : ApprovalRequest) : Logged (chain.enqueue i request) (log ++ [.arrived i request]) where
  queued s := by
    have present : i ∉ removed log := fun member => fresh (logged.arrivedFirst member)
    have same : removed (log ++ [.arrived i request]) = removed log := by
      rw [removed_append]
      exact List.append_nil _
    rw [ApprovalChain.enqueue_queue,waiting,same,arrivals_append,List.filter_append]
    by_cases own : s = request.sessionKey
    · subst own
      rw [if_pos rfl,List.map_append,logged.queued,waiting]
      simp [arrivals,present]
    · rw [if_neg own,logged.queued,waiting]
      simp [arrivals,Ne.symm own]
  arrivedOnce := by
    rw [arrivedCalls_append]
    exact List.nodup_append.mpr ⟨logged.arrivedOnce, by simp [arrivedCalls], by
      rintro a member b new rfl
      obtain rfl : a = i := by simpa [arrivedCalls] using new
      exact fresh member⟩
  removedOnce := by
    rw [removed_append]
    simpa [removed] using logged.removedOnce
  arrivedFirst := by
    rw [removed_append,arrivedCalls_append]
    simpa [removed] using List.Subset.trans logged.arrivedFirst (List.subset_append_left _ _)
  permanents command approved := by
    obtain ⟨earlier, request, same, granted⟩ := logged.permanents command approved
    exact ⟨earlier, request, same, granted.mono (List.subset_append_left _ _)⟩
  sessions s command approved := by
    obtain ⟨earlier, request, same, own, granted⟩ := logged.sessions s command approved
    exact ⟨earlier, request, same, own, granted.mono (List.subset_append_left _ _)⟩
  warranted := logged.warranted.snoc trivial

/-- Entries leave the queues: what stays waits on, in order. -/
theorem Logged.removing (logged : Logged chain log) (none : arrivedCalls new = [])
    (once : (removed new).Nodup) (origin : ∀ call ∈ removed new, ∃ s, call ∈ waiting s log)
    (queues : ∀ s, (after.queue s).map (·.responseTx) =
      (waiting s log).filter fun call => call ∉ removed new)
    (same : SameApprovals chain after) (warranted : Justified Warranted (log ++ new)) :
    Logged after (log ++ new) where
  queued s := by rw [queues,waiting_append none]
  arrivedOnce := by rw [arrivedCalls_append,none,List.append_nil]; exact logged.arrivedOnce
  removedOnce := by
    rw [removed_append]
    refine List.nodup_append.mpr ⟨logged.removedOnce, once, ?_⟩
    rintro a gone b member rfl
    obtain ⟨s, waits⟩ := origin a member
    simp [waiting,gone] at waits
  arrivedFirst := by
    rw [removed_append,arrivedCalls_append,none,List.append_nil]
    apply List.append_subset.mpr ⟨logged.arrivedFirst, fun call member => ?_⟩
    obtain ⟨s, waits⟩ := origin call member
    exact waiting_sublist.subset waits
  permanents command approved := by
    obtain ⟨earlier, request, found, granted⟩ := logged.permanents command (same.permanent command ▸ approved)
    exact ⟨earlier, request, found, granted.mono (List.subset_append_left _ _)⟩
  sessions s command approved := by
    obtain ⟨earlier, request, found, own, granted⟩ :=
      logged.sessions s command (same.session s command ▸ approved)
    exact ⟨earlier, request, found, own, granted.mono (List.subset_append_left _ _)⟩
  warranted := warranted

theorem modify_found {f : Call → Call} {call' : Call} (found : (calls.modify i f)[j]? = some call') :
    (j = i ∧ ∃ call, calls[i]? = some call ∧ call' = f call) ∨ (j ≠ i ∧ calls[j]? = some call') := by
  by_cases same : j = i
  · subst same
    rw [List.getElem?_modify_eq] at found
    obtain ⟨call, there, rfl⟩ := Option.map_eq_some_iff.mp found
    exact .inl ⟨rfl, call, there, rfl⟩
  · rw [List.getElem?_modify_ne _ _ (Ne.symm same)] at found
    exact .inr ⟨same, found⟩

theorem append_found {fresh : Call} (found : (calls ++ [fresh])[i]? = some call) :
    calls[i]? = some call ∨ call = fresh := by
  rw [List.getElem?_append] at found
  split at found
  · exact .inl found
  · exact .inr (by simpa using List.mem_of_getElem? found)

/-- One call goes on; it keeps its request and gains no response. -/
theorem Tracked.modify {f : Call → Call} (tracked : Tracked calls log) (found : calls[i]? = some call)
    (grows : log ⊆ new)
    (arrived : ∀ j request, .arrived j request ∈ new → .arrived j request ∈ log ∨
      j = i ∧ request = call.request ∧ (f call).phase.Queued)
    (keeps : (f call).request = call.request) (stays : call.phase.Queued → (f call).phase.Queued)
    (has : ∀ response, (f call).Has response → call.Has response) : Tracked (calls.modify i f) new where
  known j request member := by
    rcases arrived j request member with before | ⟨rfl, rfl, queued⟩
    · obtain ⟨other, there, same, queued⟩ := tracked.known j request before
      by_cases own : j = i
      · subst own
        obtain rfl := Option.some.inj (there.symm.trans found)
        exact ⟨f other, by simp [found], keeps.trans same, stays queued⟩
      · exact ⟨other, by rw [List.getElem?_modify_ne _ _ (Ne.symm own)]; exact there, same, queued⟩
    · exact ⟨f call, by simp [found], keeps, queued⟩
  messages j other response there carries := by
    rcases modify_found there with ⟨rfl, before, found', rfl⟩ | ⟨_, there⟩
    · obtain rfl := Option.some.inj (found'.symm.trans found)
      rw [keeps]
      exact grows (tracked.messages j before response found (has response carries))
    · exact grows (tracked.messages j other response there carries)

/-- Steps of one call that log no arrival. -/
theorem Tracked.proceed {f : Call → Call} (tracked : Tracked calls log) (found : calls[i]? = some call)
    (none : arrivedCalls new = []) (keeps : (f call).request = call.request)
    (stays : call.phase.Queued → (f call).phase.Queued)
    (has : ∀ response, (f call).Has response → call.Has response) :
    Tracked (calls.modify i f) (log ++ new) := by
  apply tracked.modify found (List.subset_append_left _ _) _ keeps stays has
  intro j request member
  rcases List.mem_append.mp member with before | fresh
  · exact .inl before
  · have arrived : j ∈ arrivedCalls new := mem_arrivedCalls.mpr ⟨request, fresh⟩
    rw [none] at arrived
    cases arrived

theorem Tracked.deliver (tracked : Tracked calls log)
    (own : ∀ call, calls[i]? = some call → call.request.sessionKey = s) (response : ApprovalResponse) :
    Tracked (deliver calls ⟨i, response⟩) (log ++ [.taken i s response]) where
  known j request member := by
    obtain ⟨call, there, same, queued⟩ := tracked.known j request (by simpa using member)
    by_cases same' : j = i
    · subst same'
      exact ⟨{ call with channel := call.channel ++ [response] }, by simp [Approval.deliver,there], same,
        queued⟩
    · exact ⟨call, by simp [Approval.deliver,Ne.symm same',there], same, queued⟩
  messages j call response' there carries := by
    rcases modify_found there with ⟨rfl, before, found, rfl⟩ | ⟨_, there⟩
    · rcases carries with inChannel | inHand
      · rcases List.mem_append.mp inChannel with old | fresh
        · exact List.mem_append_left _ (tracked.messages j before response' found (.inl old))
        · obtain rfl := List.mem_singleton.mp fresh
          simp [own before found]
      · exact List.mem_append_left _ (tracked.messages j before response' found (.inr inHand))
    · exact List.mem_append_left _ (tracked.messages j call response' there carries)

def Sent.event (sessionKey : String) (message : Sent) : Event :=
  .taken message.responseTx sessionKey message.response

theorem deliver_request {message : Sent} {call' : Call}
    (found : (deliver calls message)[j]? = some call') :
    ∃ call, calls[j]? = some call ∧ call.request = call'.request := by
  rcases modify_found found with ⟨rfl, before, there, rfl⟩ | ⟨_, there⟩
  · exact ⟨before, there, rfl⟩
  · exact ⟨call', there, rfl⟩

theorem Tracked.send (tracked : Tracked calls log) (sent : List Sent)
    (own : ∀ message ∈ sent, ∀ call, calls[message.responseTx]? = some call →
      call.request.sessionKey = s) :
    Tracked (sent.foldl Approval.deliver calls) (log ++ sent.map (Sent.event s)) := by
  induction sent generalizing calls log with
  | nil => simpa using tracked
  | cons message sent ih =>
    have first := tracked.deliver (own message List.mem_cons_self) message.response
    have rest := ih first (fun other member call' found => by
      obtain ⟨call, there, same⟩ := deliver_request found
      rw [← same]
      exact own other (List.mem_cons_of_mem _ member) call there)
    rwa [List.append_assoc,List.singleton_append] at rest

theorem filter_notMem_left {front rest : List Nat} (nodup : (front ++ rest).Nodup) :
    (front ++ rest).filter (fun call => call ∉ front) = rest := by
  have disjoint := (List.nodup_append.mp nodup).2.2
  have gone : front.filter (fun call => call ∉ front) = [] := by simp
  have kept : rest.filter (fun call => call ∉ front) = rest :=
    List.filter_eq_self.mpr fun call member => by
      simpa using fun inside => disjoint call inside call member rfl
  rw [List.filter_append,gone,kept,List.nil_append]

theorem filter_map_dropped {p : ApprovalEntry → Bool} {entries : List ApprovalEntry}
    (nodup : (entries.map (·.responseTx)).Nodup) :
    (entries.map (·.responseTx)).filter (fun call => call ∉ (entries.filter p).map (·.responseTx)) =
      (entries.filter fun entry => !p entry).map (·.responseTx) := by
  rw [List.filter_map]
  congr 1
  apply List.filter_congr
  intro entry member
  have alone : ∀ other ∈ entries, other.responseTx = entry.responseTx → other = entry :=
    fun other there same => List.inj_on_of_nodup_map nodup there member same
  cases held : p entry with
  | true =>
    have gone : entry.responseTx ∈ (entries.filter p).map (·.responseTx) :=
      List.mem_map_of_mem (List.mem_filter.mpr ⟨member, held⟩)
    simp only [Function.comp_apply,gone,not_true_eq_false,decide_false,Bool.not_true]
  | false =>
    simp only [Function.comp_apply,List.mem_map,List.mem_filter,decide_eq_true_eq,Bool.not_false]
    rintro ⟨other, ⟨there, holds⟩, same⟩
    rw [alone other there same,held] at holds
    cases holds

namespace Grounded

theorem waiting_nodup (grounded : Grounded system) : (waiting s system.log).Nodup :=
  grounded.logged.arrivedOnce.sublist waiting_sublist

theorem waiting_request (grounded : Grounded system) (waits : i ∈ waiting s system.log) :
    ∃ call, system.calls[i]? = some call ∧ call.request.sessionKey = s ∧ call.phase.Queued := by
  obtain ⟨request, member, own⟩ := mem_arrivals.mp (List.mem_filter.mp waits).1
  obtain ⟨call, found, same, queued⟩ := grounded.tracked.known i request member
  exact ⟨call, found, same ▸ own, queued⟩

theorem waiting_session (grounded : Grounded system) (first : i ∈ waiting s system.log)
    (second : i ∈ waiting sessionKey system.log) : s = sessionKey := by
  obtain ⟨call, found, own, _⟩ := grounded.waiting_request first
  obtain ⟨call', found', own', _⟩ := grounded.waiting_request second
  obtain rfl := Option.some.inj (found.symm.trans found')
  exact own.symm.trans own'

/-- A call that has not queued itself has not arrived. -/
theorem not_arrived (grounded : Grounded system) (found : system.calls[i]? = some call)
    (early : ¬ call.phase.Queued) : i ∉ arrivedCalls system.log := by
  intro member
  obtain ⟨request, arrived⟩ := mem_arrivedCalls.mp member
  obtain ⟨call', found', _, queued⟩ := grounded.tracked.known i request arrived
  obtain rfl := Option.some.inj (found.symm.trans found')
  exact early queued

/-- A call whose entry was taken had arrived with its own request. -/
theorem arrived_of_taken (grounded : Grounded system) (found : system.calls[i]? = some call)
    (taken : .taken i s response ∈ system.log) : .arrived i call.request ∈ system.log := by
  obtain ⟨request, arrived⟩ := mem_arrivedCalls.mp (grounded.logged.arrivedFirst (taken_removed taken))
  obtain ⟨call', found', rfl, _⟩ := grounded.tracked.known i request arrived
  obtain rfl := Option.some.inj (found.symm.trans found')
  exact arrived

/-- A pre-approval a call finds comes from another call's decision. -/
theorem granted (grounded : Grounded system) (found : system.calls[i]? = some call)
    (early : ¬ call.phase.Queued)
    (approved : system.chain.isPreApproved call.request.sessionKey call.request.command) :
    Granted system.log i call.request := by
  have other : ∀ {earlier request scope}, GrantedBy system.log earlier request scope → earlier ≠ i := by
    rintro earlier request scope ⟨arrived, _⟩ rfl
    exact grounded.not_arrived found early (mem_arrivedCalls.mpr ⟨request, arrived⟩)
  rw [ApprovalChain.isPreApproved,Bool.or_eq_true] at approved
  rcases approved with permanent | session
  · obtain ⟨earlier, request, same, granted⟩ := grounded.logged.permanents _ permanent
    exact ⟨earlier, request, other granted, same, .inl granted⟩
  · obtain ⟨earlier, request, same, own, granted⟩ := grounded.logged.sessions _ _ session
    exact ⟨earlier, request, other granted, same, .inr ⟨own, granted⟩⟩

theorem record (grounded : Grounded system) (none : arrivedCalls new = []) (kept : removed new = [])
    (warranted : Justified Warranted (system.log ++ new)) : Grounded (system.record new) where
  logged := grounded.logged.silent none kept (fun _ => rfl) ⟨rfl, rfl⟩ warranted
  tracked := by
    constructor
    · intro i request member
      apply grounded.tracked.known i request
      rcases List.mem_append.mp member with before | fresh
      · exact before
      · have arrived : i ∈ arrivedCalls new := mem_arrivedCalls.mpr ⟨request, fresh⟩
        rw [none] at arrived
        cases arrived
    · intro i call response found has
      exact List.mem_append_left _ (grounded.tracked.messages i call response found has)

theorem goto {phase : Phase} (grounded : Grounded system) (found : system.calls[i]? = some call)
    (stays : call.phase.Queued → phase.Queued)
    (gains : ∀ response, phase = .received response ∨ phase = .applied response → call.Has response) :
    Grounded (system.goto i phase) where
  logged := grounded.logged
  tracked := by
    have kept := grounded.tracked.proceed (f := fun call => { call with phase := phase }) found
      (rfl : arrivedCalls [] = []) rfl stays (by
        rintro response (inChannel | inHand)
        · exact .inl inChannel
        · exact gains response inHand)
    rwa [List.append_nil] at kept

/-- The history is nothing a call looks at. -/
theorem written (grounded : Grounded system) (s : String) (response : ApprovalResponse) :
    Grounded (system.withChain (system.chain.addToHistory s response)) where
  logged :=
    let ⟨queued, arrivedOnce, removedOnce, arrivedFirst, permanents, sessions, warranted⟩ := grounded.logged
    ⟨queued, arrivedOnce, removedOnce, arrivedFirst, permanents, sessions, warranted⟩
  tracked := grounded.tracked

/-- A call returns what it was given, or nothing approved. -/
theorem finish {result : Except String ApprovalResponse} (grounded : Grounded system)
    (found : system.calls[i]? = some call)
    (warranted : Warranted system.log (.returned i call.request result)) :
    Grounded (system.finish i call.request result) := by
  have gone : Grounded (system.goto i (.returned result)) :=
    grounded.goto found (fun _ => trivial) (by rintro response (taken | held) <;> contradiction)
  exact gone.record rfl rfl (grounded.logged.warranted.snoc warranted)

theorem passed (grounded : Grounded system) (found : system.calls[i]? = some call)
    (early : ¬ call.phase.Queued) (now : Nat)
    (approved : system.chain.isPreApproved call.request.sessionKey call.request.command) :
    Grounded (system.passPreApproved i call.request now) := by
  have noted : Grounded (system.record [.preApproved i call.request]) :=
    grounded.record rfl rfl (grounded.logged.warranted.snoc (grounded.granted found early approved))
  apply noted.finish found
  exact fun _ => .inr (List.mem_append_right _ List.mem_cons_self)

theorem enqueued (grounded : Grounded system) (found : system.calls[i]? = some call)
    (phase : call.phase = .enqueue) :
    Grounded (((system.withChain (system.chain.enqueue i call.request)).goto i .waiting).record
      [.arrived i call.request]) where
  logged := grounded.logged.enqueued (grounded.not_arrived found (by rw [phase]; exact id)) call.request
  tracked := by
    apply grounded.tracked.modify (f := fun call => { call with phase := .waiting }) found
      (List.subset_append_left _ _)
    · intro j request member
      rcases List.mem_append.mp member with before | fresh
      · exact .inl before
      · cases List.mem_singleton.mp fresh
        exact .inr ⟨rfl, rfl, trivial⟩
    · rfl
    · exact fun _ => trivial
    · rintro response (inChannel | taken | held)
      · exact .inl inChannel
      · cases taken
      · cases held

theorem received {rest : List ApprovalResponse} (grounded : Grounded system)
    (found : system.calls[i]? = some call) (message : call.channel = response :: rest) :
    Grounded { system with calls := system.calls.modify i fun call =>
      { call with phase := .received response, channel := rest } } where
  logged := grounded.logged
  tracked := by
    have kept := grounded.tracked.proceed
      (f := fun call => { call with phase := .received response, channel := rest }) found
      (rfl : arrivedCalls [] = []) rfl (fun _ => trivial) (by
        rintro other (inChannel | taken | held)
        · exact .inl (message ▸ List.mem_cons_of_mem _ inChannel)
        · cases taken
          exact .inl (message ▸ List.mem_cons_self)
        · cases held)
    rwa [List.append_nil] at kept

/-- The scope a call stores is the one its own resolution gave. -/
theorem applied (grounded : Grounded system) (found : system.calls[i]? = some call)
    (phase : call.phase = .received response) :
    Grounded (((system.withChain (system.chain.applyApprovalScope call.request.sessionKey
      call.request.command response)).goto i (.applied response)).record
        (storing i call.request response)) := by
  have taken := grounded.tracked.messages i call response found (.inr (.inl phase))
  have arrived := grounded.arrived_of_taken found taken
  have silent : arrivedCalls (storing i call.request response) = [] ∧
      removed (storing i call.request response) = [] := by
    rw [storing]
    split <;> exact ⟨rfl, rfl⟩
  have stored : response.decision = .approved → response.scope ≠ .once →
      GrantedBy (system.log ++ storing i call.request response) i call.request response.scope := by
    intro decided lasting
    rw [storing,if_pos ⟨decided, lasting⟩]
    exact ⟨List.mem_append_left _ arrived, List.mem_append_right _ List.mem_cons_self, response,
      List.mem_append_left _ taken, decided, rfl⟩
  constructor
  · apply grounded.logged.quiet silent.1 silent.2
    · intro s
      rw [ApprovalChain.queue,ApprovalChain.queue,System.withChain,System.goto,System.record]
      rw [ApprovalChain.applyApprovalScope_pending]
    · intro command approved
      apply (ApprovalChain.applyApprovalScope_permanent approved).imp_right
      rintro ⟨rfl, decided, granted⟩
      exact ⟨i, call.request, rfl, granted ▸ stored decided (by simp [granted])⟩
    · intro s command approved
      apply (ApprovalChain.applyApprovalScope_session approved).imp_right
      rintro ⟨rfl, rfl, decided, granted⟩
      exact ⟨i, call.request, rfl, rfl, granted ▸ stored decided (by simp [granted])⟩
    · rw [storing]
      split
      · exact grounded.logged.warranted.snoc trivial
      · rw [List.append_nil]
        exact grounded.logged.warranted
  · apply grounded.tracked.proceed (f := fun call => { call with phase := .applied response }) found silent.1
    · rfl
    · exact fun _ => trivial
    · rintro other (inChannel | taken | held)
      · exact .inl inChannel
      · cases taken
      · cases held
        exact .inr (.inl phase)

/-- Entries that leave the queue of one session were not waiting in another. -/
theorem others_wait (grounded : Grounded system) {gone : List Nat}
    (waits : ∀ call ∈ gone, call ∈ waiting s system.log) (distinct : sessionKey ≠ s) :
    (waiting sessionKey system.log).filter (fun call => call ∉ gone) = waiting sessionKey system.log := by
  apply List.filter_eq_self.mpr
  intro call member
  have stays : call ∉ gone := fun inside => distinct (grounded.waiting_session member (waits call inside))
  simpa using stays

theorem removed_dropped (gone : List Nat) : removed (gone.map .dropped) = gone := by
  induction gone with
  | nil => rfl
  | cons call gone ih => exact congrArg (call :: ·) ih

theorem arrivedCalls_dropped (gone : List Nat) : arrivedCalls (gone.map .dropped) = [] := by
  induction gone with
  | nil => rfl
  | cons call gone ih => exact ih

theorem justified_dropped (warranted : Justified Warranted log) (gone : List Nat) :
    Justified Warranted (log ++ gone.map .dropped) := by
  apply warranted.append
  intro before event after split
  have member : event ∈ gone.map Event.dropped := by rw [split]; simp
  obtain ⟨call, _, rfl⟩ := List.mem_map.mp member
  trivial

theorem withdrew (grounded : Grounded system) (found : system.calls[i]? = some call) :
    Grounded (((system.withChain (system.chain.removePendingRequest call.request.sessionKey
      call.request.requestId)).goto i .withdrawn).record
        ((dropping system.chain call.request).map .dropped)) := by
  have queued := grounded.logged.queued call.request.sessionKey
  have nodup : ((system.chain.queue call.request.sessionKey).map (·.responseTx)).Nodup :=
    queued ▸ grounded.waiting_nodup
  have waits : ∀ gone ∈ dropping system.chain call.request,
      gone ∈ waiting call.request.sessionKey system.log := by
    intro gone member
    rw [← queued]
    exact (List.filter_sublist.map _).subset member
  obtain ⟨sessions, permanents⟩ := system.chain.removePendingRequest_approvals
    call.request.sessionKey call.request.requestId
  constructor
  · apply grounded.logged.removing (arrivedCalls_dropped _)
    · rw [removed_dropped]
      exact nodup.sublist (List.filter_sublist.map _)
    · intro gone member
      rw [removed_dropped] at member
      exact ⟨_, waits gone member⟩
    · intro s
      rw [removed_dropped]
      change ((system.chain.removePendingRequest call.request.sessionKey
        call.request.requestId).queue s).map _ = _
      rw [ApprovalChain.removePendingRequest_queue]
      by_cases own : s = call.request.sessionKey
      · rw [if_pos own,own,← queued,dropping,filter_map_dropped nodup]
        simp
      · rw [if_neg own,grounded.logged.queued,grounded.others_wait waits own]
    · exact ⟨permanents, sessions⟩
    · exact justified_dropped grounded.logged.warranted _
  · apply grounded.tracked.proceed (f := fun call => { call with phase := .withdrawn }) found
      (arrivedCalls_dropped _)
    · rfl
    · exact fun _ => trivial
    · rintro response (inChannel | taken | held)
      · exact .inl inChannel
      · cases taken
      · cases held

theorem removed_taken (s : String) (sent : List Sent) :
    removed (sent.map (Sent.event s)) = sent.map (·.responseTx) := by
  induction sent with
  | nil => rfl
  | cons message sent ih => exact congrArg (message.responseTx :: ·) ih

theorem arrivedCalls_taken (s : String) (sent : List Sent) : arrivedCalls (sent.map (Sent.event s)) = [] := by
  induction sent with
  | nil => rfl
  | cons message sent ih => exact ih

/-- Entries popped one after the other from the front are each the oldest of their session. -/
theorem justified_taken (grounded : Grounded system) {sent : List Sent} {rest : List Nat}
    (split : waiting s system.log = sent.map (·.responseTx) ++ rest) :
    Justified Warranted (system.log ++ sent.map (Sent.event s)) := by
  apply grounded.logged.warranted.append
  intro before event after cut
  obtain ⟨first, last, rfl, rfl, tail⟩ := List.map_eq_append_iff.mp cut
  obtain ⟨message, later, rfl, rfl, rfl⟩ := List.map_eq_cons_iff.mp tail
  have nodup : (first.map (·.responseTx) ++ (message.responseTx :: later.map (·.responseTx) ++ rest)).Nodup := by
    have nodup := grounded.waiting_nodup (s := s)
    rw [split] at nodup
    simpa using nodup
  have oldest : waiting s (system.log ++ first.map (Sent.event s)) =
      message.responseTx :: later.map (·.responseTx) ++ rest := by
    rw [waiting_append (arrivedCalls_taken s first),removed_taken,split]
    simpa using filter_notMem_left nodup
  change (waiting s _).head? = some message.responseTx
  rw [oldest]
  rfl

theorem sent (grounded : Grounded system) {front : List ApprovalEntry}
    (takes : Takes system.chain s front after) (decision : ApprovalDecision) (scope : ApprovalScope)
    (now : Nat) : Grounded (system.send s after (front.map (ApprovalEntry.send decision scope now))) := by
  have receivers : (front.map (ApprovalEntry.send decision scope now)).map (·.responseTx) =
      front.map (·.responseTx) := by
    rw [List.map_map]
    rfl
  have split : waiting s system.log = front.map (·.responseTx) ++ (after.queue s).map (·.responseTx) := by
    rw [← grounded.logged.queued,takes.split,List.map_append]
  have nodup : (front.map (·.responseTx) ++ (after.queue s).map (·.responseTx)).Nodup :=
    split ▸ grounded.waiting_nodup
  have waits : ∀ call ∈ front.map (·.responseTx), call ∈ waiting s system.log := fun call member => by
    rw [split]
    exact List.mem_append_left _ member
  constructor
  · apply grounded.logged.removing (arrivedCalls_taken s _)
    · rw [removed_taken,receivers]
      exact (List.nodup_append.mp nodup).1
    · intro call member
      rw [removed_taken,receivers] at member
      exact ⟨s, waits call member⟩
    · intro other
      rw [removed_taken,receivers]
      by_cases own : other = s
      · rw [own,split,filter_notMem_left nodup]
        rfl
      · rw [grounded.others_wait waits own,← grounded.logged.queued]
        change ((after.pending other).getD []).map _ = _
        rw [takes.others other own]
        rfl
    · exact ⟨takes.permanents, takes.sessions⟩
    · exact grounded.justified_taken (receivers ▸ split)
  · apply grounded.tracked.send
    intro message member call found
    have waiting : message.responseTx ∈ waiting s system.log :=
      waits _ (receivers ▸ List.mem_map_of_mem member)
    obtain ⟨call', found', own, _⟩ := grounded.waiting_request waiting
    obtain rfl := Option.some.inj (found.symm.trans found')
    exact own

theorem cleared (grounded : Grounded system) (sessionKey : String) :
    Grounded ((system.withChain (system.chain.clearSessionApprovals sessionKey)).record
      [.cleared sessionKey]) where
  logged := by
    apply grounded.logged.quiet
    · rfl
    · rfl
    · exact fun _ => rfl
    · exact fun command approved => .inl approved
    · exact fun s command approved => .inl (ApprovalChain.clearSessionApprovals_session approved).2
    · exact grounded.logged.warranted.snoc trivial
  tracked := by
    have noted : Justified Warranted (system.log ++ [.cleared sessionKey]) :=
      grounded.logged.warranted.snoc trivial
    exact (grounded.record rfl rfl noted).tracked

theorem began (grounded : Grounded system) (request : ApprovalRequest) :
    Grounded { system with calls := system.calls ++ [⟨request, .checkPermanent, []⟩] } where
  logged := grounded.logged
  tracked := by
    constructor
    · intro i request member
      obtain ⟨call, found, holds⟩ := grounded.tracked.known i request member
      exact ⟨call, List.getElem?_append_left (List.getElem?_eq_some_iff.mp found).1 ▸ found, holds⟩
    · intro i call response found has
      rcases append_found found with old | rfl
      · exact grounded.tracked.messages i call response old has
      · rcases has with inChannel | taken | held
        · cases inChannel
        · cases taken
        · cases held

theorem step {action : Action} {system' : System} (grounded : Grounded system)
    (step : Step system action system') : Grounded system' := by
  cases step with
  | idle => exact grounded
  | began => exact grounded.began _
  | moved found moves =>
    cases moves with
    | permanentChecked | sessionChecked | gaveUp =>
      exact grounded.goto found id (by rintro response (taken | held) <;> contradiction)
  | passed found early approved =>
    exact grounded.passed found (by rcases early with at' | at' <;> rw [at'] <;> exact id) _ approved
  | enqueued found phase => exact grounded.enqueued found phase
  | received found _ message => exact grounded.received found message
  | applied found phase => exact grounded.applied found phase
  | finished found phase =>
    apply (grounded.written _ _).finish found
    exact fun _ => .inl (grounded.tracked.messages _ _ _ found (.inr (.inr phase)))
  | withdrew found _ => exact grounded.withdrew found
  | expired found _ =>
    exact (grounded.written _ _).finish found trivial
  | sent decision scope now takes => exact grounded.sent takes decision scope now
  | cleared => exact grounded.cleared _

theorem start : Grounded System.start where
  logged := by
    constructor
    · exact fun _ => rfl
    · exact List.nodup_nil
    · exact List.nodup_nil
    · exact List.Subset.refl _
    · exact fun _ approved => by cases approved
    · exact fun _ _ approved => by cases approved
    · exact Justified.nil
  tracked := by
    constructor
    · exact fun _ _ member => by cases member
    · exact fun _ _ _ found => by cases found

theorem run (grounded : Grounded system) (actions : List Action) : Grounded (system.run actions) := by
  induction actions generalizing system with
  | nil => exact grounded
  | cons action actions ih => exact ih (grounded.step (system.step_cases action))

end Grounded

/-- Approvals come from decisions, and entries leave their queue once, oldest first. -/
structure OnlyByDecision (system : System) : Prop where
  approved : ∀ before call request response after,
    system.log = before ++ .returned call request (.ok response) :: after → response.decision = .approved →
      .taken call request.sessionKey response ∈ before ∨
      ∃ early late, before = early ++ .preApproved call request :: late ∧ Granted early call request
  once : (removed system.log).Nodup
  queues : ∀ s, (system.chain.queue s).map (·.responseTx) = waiting s system.log
  inOrder : ∀ before call s response after, system.log = before ++ .taken call s response :: after →
    (waiting s before).head? = some call
  others : ∀ s decision scope all now other, other ≠ s →
    (system.step (.resolveApproval s decision scope all now)).chain.pending other =
      system.chain.pending other

theorem no_approval_without_decision (actions : List Action) :
    OnlyByDecision (System.start.run actions) := by
  have grounded := Grounded.start.run actions
  constructor
  · intro before call request response after split decided
    rcases grounded.logged.warranted _ _ _ split decided with taken | passed
    · exact .inl taken
    · obtain ⟨early, late, rfl⟩ := List.append_of_mem passed
      rw [List.append_assoc] at split
      exact .inr ⟨early, late, rfl, grounded.logged.warranted _ _ _ split⟩
  · exact grounded.logged.removedOnce
  · exact grounded.logged.queued
  · intro before call s response after split
    exact grounded.logged.warranted _ _ _ split
  · intro s decision scope all now other distinct
    exact (ApprovalChain.resolveApproval_spec _ s decision scope all now).1.others other distinct

end Zaion.Approval
