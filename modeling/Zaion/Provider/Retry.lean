import Mathlib.Algebra.Group.Nat.Defs
import Zaion.Lib.Text

/-! The provider that calls another one again after an error. A stream is tried again only
while none of its tokens is shown; the switch for rate limits is read by neither loop. -/
namespace Zaion.Provider.Retry

open Lib

/-- `AdapterError`, a serialization error with its text. -/
inductive AdapterError where
  | channel (message : String)
  | provider (message : String)
  | serialization (message : String)
  | runtime (message : String)
  deriving DecidableEq, Repr

/-- `to_string`. -/
def AdapterError.text : AdapterError → String
  | channel message => "channel error: " ++ message
  | provider message => "provider error: " ++ message
  | serialization message => "serialization error: " ++ message
  | runtime message => "runtime error: " ++ message

def clientErrors : List String := ["http 400", "http 401", "http 403", "http 404"]

def connectivityErrors : List String :=
  ["connection refused", "timed out", "timeout", "network", "connect error", "dns"]

/-- The configuration, without what only the delays are computed from. -/
structure RetryConfig where
  maxAttempts : Nat
  /-- "Whether to retry on HTTP 429 (rate-limit) errors." -/
  retryOnRateLimit : Bool

structure RetryProvider where
  config : RetryConfig
  /-- A callback is attached. -/
  onRetry : Bool
  /-- `str::to_lowercase`. -/
  lower : String → String
  /-- `delay_for_attempt` in milliseconds, computed in floating point. -/
  delayForAttempt : Nat → Nat

/-- One call of the inner provider: what it shows before it ends, and how it ends. -/
structure Call (Response : Type) where
  tokens : List String
  result : Except AdapterError Response

inductive Event (Request : Type) where
  | called (request : Request)
  | token (text : String)
  | retrying (attempt delayMs : Nat) (message : String)
  | slept (delayMs : Nat)
  deriving DecidableEq

variable {Request Response : Type} (p : RetryProvider) (request : Request)

/-- Not one of the client errors, and a rate limit (HTTP 429). -/
def isRateLimit (error : AdapterError) : Bool :=
  let msg := p.lower error.text
  !clientErrors.any (containsText msg) && (containsText msg "429" || containsText msg "rate limit")

def isRetryable (error : AdapterError) : Bool :=
  let msg := p.lower error.text
  if clientErrors.any (containsText msg) then false
  else if containsText msg "429" || containsText msg "rate limit" then true
  else if containsText msg "http 5" then true
  else connectivityErrors.any (containsText msg)

/-- What happens between an attempt that failed and the next one. -/
def pause (attempt : Nat) (error : AdapterError) : List (Event Request) :=
  (if p.onRetry then [.retrying (attempt + 1) (p.delayForAttempt attempt) error.text] else []) ++
    [.slept (p.delayForAttempt attempt)]

def exhausted : AdapterError := .provider "retry loop exhausted unexpectedly"

/-- The loop of `complete` over the attempts left. -/
def completeOver (inner : Nat → Except AdapterError Response) :
    List Nat → List (Event Request) × Except AdapterError Response
  | [] => ([], .error exhausted)
  | attempt :: left =>
    match inner attempt with
    | .ok response => ([.called request], .ok response)
    | .error e =>
      if !isRetryable p e then ([.called request], .error e)
      else if attempt = p.config.maxAttempts - 1 then ([.called request], .error e)
      else
        let rest := completeOver inner left
        (.called request :: pause p attempt e ++ rest.1, rest.2)

def complete (inner : Nat → Except AdapterError Response) : List (Event Request) × Except AdapterError Response :=
  completeOver p request inner (List.range p.config.maxAttempts)

/-- The loop of `complete_stream` over the attempts left. -/
def streamOver (inner : Nat → Call Response) : List Nat → List (Event Request) × Except AdapterError Response
  | [] => ([], .error exhausted)
  | attempt :: left =>
    let call := inner attempt
    let shown := .called request :: call.tokens.map .token
    match call.result with
    | .ok response => (shown, .ok response)
    | .error e =>
      if call.tokens ≠ [] then (shown, .error e)
      else if !isRetryable p e then (shown, .error e)
      else if attempt = p.config.maxAttempts - 1 then (shown, .error e)
      else
        let rest := streamOver inner left
        (shown ++ pause p attempt e ++ rest.1, rest.2)

/-- `complete_stream`, for the calls of the inner provider in order. -/
def completeStream (inner : Nat → Call Response) : List (Event Request) × Except AdapterError Response :=
  streamOver p request inner (List.range p.config.maxAttempts)

def calls (events : List (Event Request)) : List Request :=
  events.filterMap (fun | .called request => some request | _ => none)

def tokens (events : List (Event Request)) : List String :=
  events.filterMap (fun | .token text => some text | _ => none)

/-- The call shows nothing and fails with an error that is tried again. -/
def Passes (call : Call Response) : Prop := call.tokens = [] ∧ ∃ e, call.result = .error e ∧ isRetryable p e = true

/-- The call fails with a rate limit. -/
def Limited (call : Call Response) : Prop := ∃ e, call.result = .error e ∧ isRateLimit p e = true

/-- What a stream shows is its last attempt, and the attempts before it had a reason to go on. -/
structure ShowsOneAttempt (inner : Nat → Call Response)
    (run : List (Event Request) × Except AdapterError Response) : Prop where
  bounded : (calls run.1).length ≤ p.config.maxAttempts
  requests : ∀ made ∈ calls run.1, made = request
  last : ∃ before n, run.1 = before ++ .called request :: (inner n).tokens.map .token ∧
    tokens before = [] ∧ (calls before).length = n ∧ run.2 = (inner n).result
  passed : ∀ n, n + 1 < (calls run.1).length → Passes p (inner n)
  limits : p.config.retryOnRateLimit = false → ∀ n, n + 1 < (calls run.1).length → ¬ Limited p (inner n)

section

variable {p request}

@[simp] theorem calls_nil : calls ([] : List (Event Request)) = [] := rfl

@[simp] theorem tokens_nil : tokens ([] : List (Event Request)) = [] := rfl

@[simp] theorem calls_append (a b : List (Event Request)) : calls (a ++ b) = calls a ++ calls b := List.filterMap_append

@[simp] theorem tokens_append (a b : List (Event Request)) : tokens (a ++ b) = tokens a ++ tokens b := List.filterMap_append

@[simp] theorem calls_called (events : List (Event Request)) : calls (.called request :: events) = request :: calls events := rfl

@[simp] theorem tokens_called (events : List (Event Request)) : tokens (.called request :: events) = tokens events := rfl

@[simp] theorem calls_shown (texts : List String) : calls (texts.map (.token : String → Event Request)) = [] := by
  simp [calls]

@[simp] theorem tokens_shown (texts : List String) : tokens (texts.map (.token : String → Event Request)) = texts := by
  simp [tokens]

@[simp] theorem calls_pause (attempt : Nat) (e : AdapterError) : calls (pause p attempt e : List (Event Request)) = [] := by
  unfold pause
  split <;> rfl

@[simp] theorem tokens_pause (attempt : Nat) (e : AdapterError) : tokens (pause p attempt e : List (Event Request)) = [] := by
  unfold pause
  split <;> rfl

end

/-- What the calls that were tried again leave in the events. -/
def tried (p : RetryProvider) (request : Request) (inner : Nat → Call Response) (attempts : List Nat) : List (Event Request) :=
  attempts.flatMap fun attempt => .called request ::
    match (inner attempt).result with
    | .error e => pause p attempt e
    | .ok _ => []

variable {p request} {inner : Nat → Call Response}

theorem calls_tried (attempts : List Nat) : calls (tried p request inner attempts) = attempts.map fun _ => request := by
  induction attempts with
  | nil => rfl
  | cons attempt rest ih =>
    rw [tried,List.flatMap_cons,calls_append,← tried,ih]
    cases (inner attempt).result <;> simp

theorem tokens_tried (attempts : List Nat) : tokens (tried p request inner attempts) = [] := by
  induction attempts with
  | nil => rfl
  | cons attempt rest ih =>
    rw [tried,List.flatMap_cons,tokens_append,← tried,ih]
    cases (inner attempt).result <;> simp

/-- One turn of the loop: the call passes to the next attempt, or it is the last. -/
theorem streamOver_again {attempt : Nat} {left : List Nat} (passes : Passes p (inner attempt))
    (more : attempt ≠ p.config.maxAttempts - 1) :
    streamOver p request inner (attempt :: left) =
      (tried p request inner [attempt] ++ (streamOver p request inner left).1, (streamOver p request inner left).2) := by
  obtain ⟨silent, e, failed, again⟩ := passes
  simp [streamOver,tried,failed,silent,again,more]

theorem streamOver_last {attempt : Nat} {left : List Nat}
    (last : Passes p (inner attempt) → attempt = p.config.maxAttempts - 1) :
    streamOver p request inner (attempt :: left) =
      (.called request :: (inner attempt).tokens.map .token, (inner attempt).result) := by
  cases ended : (inner attempt).result with
  | ok response => simp [streamOver,ended]
  | error e =>
    by_cases silent : (inner attempt).tokens = []
    · cases again : isRetryable p e with
      | false => simp [streamOver,ended,silent,again]
      | true =>
        have whole := last ⟨silent, e, ended, again⟩
        simp only [streamOver,ended,silent,again]
        simp [whole]
    · simp [streamOver,ended,silent]

/-- The loop from an attempt on ends with the first call that does not pass, or with the last attempt. -/
theorem streamOver_runs (p : RetryProvider) (request : Request) (inner : Nat → Call Response) {first left : Nat}
    (whole : first + left + 1 = p.config.maxAttempts) :
    ∃ n, first + n < p.config.maxAttempts ∧ (∀ i < n, Passes p (inner (first + i))) ∧
      (first + n + 1 < p.config.maxAttempts → ¬ Passes p (inner (first + n))) ∧
      streamOver p request inner (List.range' first (left + 1)) =
        (tried p request inner (List.range' first n) ++ .called request :: (inner (first + n)).tokens.map .token,
          (inner (first + n)).result) := by
  induction left generalizing first with
  | zero =>
    refine ⟨0, by omega, by simp, by omega, ?_⟩
    exact streamOver_last fun _ => by omega
  | succ left ih =>
    by_cases passes : Passes p (inner first)
    · obtain ⟨n, inside, before, stops, rest⟩ := @ih (first + 1) (by omega)
      refine ⟨n + 1, by omega, ?_, ?_, ?_⟩
      · intro i below
        cases i with
        | zero => exact passes
        | succ i =>
          have := before i (by omega)
          rwa [Nat.add_right_comm] at this
      · intro more
        have := stops (by omega)
        rwa [Nat.add_right_comm] at this
      · rw [List.range'_succ,streamOver_again passes (by omega),rest,List.range'_succ,Nat.add_right_comm first 1 n,
          ← List.append_assoc]
        simp [tried,Nat.add_assoc]
    · refine ⟨0, by omega, by simp, fun _ => passes, ?_⟩
      rw [List.range'_succ]
      exact streamOver_last fun holds => absurd holds passes

/-- The attempts come to a call at which the loop must end. -/
theorem completeStream_runs (request : Request) (inner : Nat → Call Response) (tries : 0 < p.config.maxAttempts) :
    ∃ n < p.config.maxAttempts, (∀ i < n, Passes p (inner i)) ∧
      (n + 1 < p.config.maxAttempts → ¬ Passes p (inner n)) ∧
      completeStream p request inner =
        (tried p request inner (List.range n) ++ .called request :: (inner n).tokens.map .token, (inner n).result) := by
  obtain ⟨left, _⟩ := Nat.exists_eq_add_of_lt tries
  have whole : 0 + left + 1 = p.config.maxAttempts := by omega
  obtain ⟨n, inside, before, stops, run⟩ := streamOver_runs p request inner whole
  simp only [Nat.zero_add,← List.range_eq_range'] at inside before stops run
  have all : left + 1 = p.config.maxAttempts := by omega
  refine ⟨n, inside, before, stops, ?_⟩
  rw [completeStream,← all]
  exact run

/-- The calls of `complete` are those of a stream that shows nothing. -/
theorem complete_eq (inner : Nat → Except AdapterError Response) :
    complete p request inner = completeStream p request (fun attempt => ⟨[], inner attempt⟩) := by
  unfold complete completeStream
  induction List.range p.config.maxAttempts with
  | nil => rfl
  | cons attempt left ih =>
    rw [completeOver,streamOver]
    cases inner attempt with
    | ok response => rfl
    | error e => simp [ih]

/-- With the switch off, no rate limit is among the calls that are tried again. -/
def RateLimitsEnd (p : RetryProvider) (inner : Nat → Call Response) : Prop :=
  p.config.retryOnRateLimit = true ∨ ∀ n, n + 1 < p.config.maxAttempts → (∀ i ≤ n, Passes p (inner i)) → ¬ Limited p (inner n)

/-- A retried stream shows one attempt exactly when there is an attempt, and either the switch is on or no rate
limit is met while attempts are left; retries without a stream do what they do with a silent one. -/
theorem showsOneAttempt_iff (p : RetryProvider) (request : Request) (inner : Nat → Call Response) :
    (ShowsOneAttempt p request inner (completeStream p request inner) ∧
        ∀ outcomes : Nat → Except AdapterError Response, complete p request outcomes =
          completeStream p request (fun attempt => ⟨[], outcomes attempt⟩)) ↔
      0 < p.config.maxAttempts ∧ RateLimitsEnd p inner := by
  constructor
  · rintro ⟨shows, -⟩
    have tries : 0 < p.config.maxAttempts := by
      obtain ⟨before, n, events, -⟩ := shows.last
      by_contra none
      have zero : p.config.maxAttempts = 0 := by omega
      simp [completeStream,zero,streamOver] at events
    refine ⟨tries, ?_⟩
    by_cases switch : p.config.retryOnRateLimit = true
    · exact .inl switch
    · refine .inr fun n inside passes => ?_
      obtain ⟨m, _, before, stops, run⟩ := completeStream_runs request inner tries
      have later : n < m := by
        by_contra early
        exact stops (by omega) (passes m (by omega))
      refine shows.limits (by simpa using switch) n ?_
      rw [run]
      simp [calls_tried]
      omega
  · rintro ⟨tries, ends⟩
    refine ⟨?_, fun outcomes => complete_eq outcomes⟩
    obtain ⟨n, inside, before, stops, run⟩ := completeStream_runs request inner tries
    have made : (calls (completeStream p request inner).1).length = n + 1 := by
      rw [run]
      simp [calls_tried]
    exact {
      bounded := by omega
      requests := by
        intro made member
        rw [run,calls_append,calls_tried,calls_called,calls_shown] at member
        simp only [List.mem_append,List.mem_map,List.mem_singleton] at member
        exact member.elim (fun ⟨_, _, same⟩ => same.symm) id
      last := ⟨tried p request inner (List.range n), n, by rw [run], tokens_tried _, by simp [calls_tried], by rw [run]⟩
      passed := fun i below => before i (by omega)
      limits := by
        intro off i below
        rcases ends with switch | ends
        · exact absurd switch (by simp [off])
        · exact ends i (by omega) fun j low => before j (by omega) }

/-- Three attempts, and rate limits are not to be tried again. -/
def unwilling : RetryProvider := ⟨⟨3, false⟩, true, toAsciiLowercase, fun attempt => 500 * 2 ^ attempt⟩

def limitedCall : Call Unit := ⟨[], .error (.provider "HTTP 429 Too Many Requests")⟩

/-- The rate limit is called again all the same. -/
theorem rate_limit_retried : (calls (completeStream unwilling () fun _ => limitedCall).1).length = 3 ∧
    ¬ ShowsOneAttempt unwilling () (fun _ => limitedCall) (completeStream unwilling () fun _ => limitedCall) := by
  have thrice : (calls (completeStream unwilling () fun _ => limitedCall).1).length = 3 := by decide
  refine ⟨thrice, fun shows => shows.limits rfl 0 (by rw [thrice]; decide) ⟨_, rfl, ?_⟩⟩
  decide

end Zaion.Provider.Retry
