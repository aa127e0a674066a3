import Zaion.Lib.Checked
import Zaion.Sample
import Zaion.Turn.Outbox

/-! The dispatcher's configuration, and how long a claim that failed waits for its next try. -/
namespace Zaion.Turn

open Lib

/-- `std::time::Duration`: up to `u64::MAX` seconds and the nanoseconds of another one. -/
structure StdDuration where
  nanos : Nat
  bounded : nanos < 18446744073709551616000000000

namespace StdDuration

def asMillis (d : StdDuration) : Nat := d.nanos / 1000000

def fromSecs (secs : UInt64) : StdDuration :=
  ⟨secs.toNat * 1000000000, by have := secs.toNat_lt; omega⟩

def fromMillis (millis : UInt64) : StdDuration :=
  ⟨millis.toNat * 1000000, by have := millis.toNat_lt; omega⟩

/-- `chrono::Duration::from_std`: a chrono duration holds at most `i64::MAX` milliseconds. -/
def toChrono (d : StdDuration) : Option Int :=
  if d.nanos ≤ i64MaxNat * 1000000 then some d.nanos else none

end StdDuration

structure OutboxDispatcherConfig where
  workerCount : Nat
  tenantScanLimit : Nat
  leaseDuration : StdDuration
  pollInterval : StdDuration
  initialRetryDelay : StdDuration
  maximumRetryDelay : StdDuration
  minimumCommitWindow : StdDuration
  shutdownTimeout : StdDuration
  retryJitterPercent : UInt8
  maximumAttempts : Nat

inductive OutboxDispatcherError where
  | invalidConfig (reason : String)
  deriving DecidableEq, Repr

namespace OutboxDispatcherConfig

/-- The values of `Default`. -/
def standard : OutboxDispatcherConfig where
  workerCount := 2
  tenantScanLimit := 128
  leaseDuration := .fromSecs 30
  pollInterval := .fromMillis 100
  initialRetryDelay := .fromMillis 250
  maximumRetryDelay := .fromSecs 30
  minimumCommitWindow := .fromSecs 12
  shutdownTimeout := .fromSecs 15
  retryJitterPercent := 20
  maximumAttempts := 8

def validate (config : OutboxDispatcherConfig) : Except OutboxDispatcherError Unit := do
  ensure (1 ≤ config.workerCount ∧ config.workerCount ≤ 32)
    (OutboxDispatcherError.invalidConfig "worker_count must be between 1 and 32")
  ensure (config.tenantScanLimit ≠ 0 ∧ config.tenantScanLimit ≤ 10000)
    (OutboxDispatcherError.invalidConfig "tenant_scan_limit must be between 1 and 10000")
  ensure ((StdDuration.fromSecs 1).nanos ≤ config.leaseDuration.nanos ∧
      config.leaseDuration.nanos ≤ (StdDuration.fromSecs 300).nanos)
    (OutboxDispatcherError.invalidConfig "lease_duration is outside the TurnStore lease boundary")
  ensure (config.pollInterval.nanos ≠ 0) (OutboxDispatcherError.invalidConfig "poll_interval must be non-zero")
  ensure (config.initialRetryDelay.nanos ≠ 0 ∧ config.initialRetryDelay.nanos ≤ config.maximumRetryDelay.nanos)
    (OutboxDispatcherError.invalidConfig "retry delays must be non-zero and monotonically bounded")
  ensure (config.minimumCommitWindow.nanos ≠ 0 ∧ config.minimumCommitWindow.nanos < config.leaseDuration.nanos)
    (OutboxDispatcherError.invalidConfig "minimum_commit_window must be non-zero and shorter than lease_duration")
  ensure (config.shutdownTimeout.nanos ≠ 0 ∧ config.shutdownTimeout.nanos ≤ (StdDuration.fromSecs 30).nanos)
    (OutboxDispatcherError.invalidConfig "shutdown_timeout must be between 1 nanosecond and 30 seconds")
  ensure (config.retryJitterPercent ≤ 100)
    (OutboxDispatcherError.invalidConfig "retry_jitter_percent must not exceed 100")
  ensure (config.maximumAttempts ≠ 0 ∧ config.maximumAttempts ≤ 10000)
    (OutboxDispatcherError.invalidConfig "maximum_attempts must be between 1 and 10000")

end OutboxDispatcherConfig

def u128Max : Nat := 340282366920938463463374607431768211455

/-- `u64::from_le_bytes`. -/
def fromLittleEndian : List UInt8 → Nat
  | [] => 0
  | byte :: rest => byte.toNat + 256 * fromLittleEndian rest

section

variable (sha256 : List UInt8 → Vector UInt8 32) (config : OutboxDispatcherConfig) (claim : TurnOutboxRecord)

/-- The delay in milliseconds without jitter; both products saturate. -/
def retryBase (attempts : Nat) : Nat :=
  let exponent := min (attempts - 1) 31
  let multiplier := 2 ^ exponent
  min (min (config.initialRetryDelay.asMillis * multiplier) u128Max) config.maximumRetryDelay.asMillis

def retryJitterLimit (base : Nat) : Nat := min (base * config.retryJitterPercent.toNat) u128Max / 100

def retrySample : Nat :=
  fromLittleEndian ((sha256 (Host.utf8 claim.outboxId ++ Host.littleEndian 8 claim.attempts)).toList.take 8)

def retryJitter : Nat :=
  let limit := retryJitterLimit config (retryBase config claim.attempts)
  if limit = 0 then 0 else retrySample sha256 claim % (limit + 1)

def retryDelay : StdDuration :=
  let delay := min (min (retryBase config claim.attempts + retryJitter sha256 config claim) u128Max) u64Max
  .fromMillis (UInt64.ofNat delay)

/-- The retry branch of `handle_claim_failure`: what is added to the time, or `none` for a panic. -/
def retryWait : Option Int := (retryDelay sha256 config claim).toChrono

/-- The delay doubled with each attempt and then capped, in nanoseconds. -/
def idealDelay (attempts : Nat) : Nat :=
  min (config.initialRetryDelay.nanos * 2 ^ (attempts - 1)) config.maximumRetryDelay.nanos

/-- What a claim may rely on: its delay is within a millisecond of the ideal one or above it, and
above it by the jitter at most. -/
structure RetrySafe : Prop where
  positive : 0 < (retryDelay sha256 config claim).nanos
  atLeast : idealDelay config claim.attempts < (retryDelay sha256 config claim).nanos + 1000000
  atMost : (retryDelay sha256 config claim).nanos * 100 ≤
    idealDelay config claim.attempts * (100 + config.retryJitterPercent.toNat)
  monotone : config.retryJitterPercent = 0 → ∀ later : TurnOutboxRecord, claim.attempts ≤ later.attempts →
    (retryDelay sha256 config claim).nanos ≤ (retryDelay sha256 config later).nanos
  converts : (retryWait sha256 config claim).isSome = true

/-- The settings whose delays stay whole: at least a millisecond to begin with, nothing lost when
the sub-millisecond part is cut off before doubling, no more doublings than the shift makes
before the maximum is reached, and no delay beyond what chrono holds. -/
structure RetryFits (attempts : Nat) : Prop where
  wholeMillis : 1000000 ≤ config.initialRetryDelay.nanos
  nothingLost : config.maximumRetryDelay.asMillis ≤ config.initialRetryDelay.asMillis * 2 ^ min (attempts - 1) 31 ∨
    (attempts ≤ 32 ∧ config.initialRetryDelay.nanos % 1000000 * 2 ^ (attempts - 1) < 1000000)
  inChrono : retryBase config attempts + retryBase config attempts * config.retryJitterPercent.toNat / 100 ≤ i64MaxNat

end

/-! Neither product saturates -/

theorem StdDuration.asMillis_lt (d : StdDuration) : d.asMillis < 18446744073709551616000 := by
  have bounded := d.bounded
  unfold asMillis
  omega

variable {sha256 : List UInt8 → Vector UInt8 32} {config : OutboxDispatcherConfig} {claim : TurnOutboxRecord} {attempts : Nat}

theorem retryBase_eq : retryBase config attempts =
    min (config.initialRetryDelay.asMillis * 2 ^ min (attempts - 1) 31) config.maximumRetryDelay.asMillis := by
  have power : 2 ^ min (attempts - 1) 31 ≤ 2147483648 := Nat.pow_le_pow_right (by decide) (Nat.min_le_right _ 31)
  have product := Nat.mul_le_mul (Nat.le_of_lt config.initialRetryDelay.asMillis_lt) power
  have small : config.initialRetryDelay.asMillis * 2 ^ min (attempts - 1) 31 ≤ u128Max := by unfold u128Max; omega
  simp only [retryBase,Nat.min_eq_left small]

theorem retryBase_le : retryBase config attempts ≤ config.maximumRetryDelay.asMillis := Nat.min_le_right _ _

theorem retryJitterLimit_eq :
    retryJitterLimit config (retryBase config attempts) = retryBase config attempts * config.retryJitterPercent.toNat / 100 := by
  have base : retryBase config attempts < 18446744073709551616000 :=
    Nat.lt_of_le_of_lt retryBase_le config.maximumRetryDelay.asMillis_lt
  have percent : config.retryJitterPercent.toNat ≤ 256 := Nat.le_of_lt config.retryJitterPercent.toNat_lt
  have product := Nat.mul_le_mul (Nat.le_of_lt base) percent
  have small : retryBase config attempts * config.retryJitterPercent.toNat ≤ u128Max := by unfold u128Max; omega
  rw [retryJitterLimit,Nat.min_eq_left small]

theorem retryJitter_le : retryJitter sha256 config claim ≤
    retryBase config claim.attempts * config.retryJitterPercent.toNat / 100 := by
  rw [retryJitter,retryJitterLimit_eq]
  split
  · omega
  · exact Nat.lt_succ_iff.mp (Nat.mod_lt _ (Nat.succ_pos _))

theorem retryJitter_none (none : config.retryJitterPercent = 0) : retryJitter sha256 config claim = 0 := by
  have jitter : retryJitter sha256 config claim ≤ _ := retryJitter_le
  simpa [none] using jitter

theorem retryDelay_nanos : (retryDelay sha256 config claim).nanos =
    min (retryBase config claim.attempts + retryJitter sha256 config claim) u64Max * 1000000 := by
  have inside : min (min (retryBase config claim.attempts + retryJitter sha256 config claim) u128Max) u64Max =
      min (retryBase config claim.attempts + retryJitter sha256 config claim) u64Max := by
    unfold u128Max u64Max; omega
  have small : min (retryBase config claim.attempts + retryJitter sha256 config claim) u64Max < UInt64.size := by
    unfold u64Max UInt64.size; omega
  have nanos : (retryDelay sha256 config claim).nanos = (UInt64.ofNat
      (min (min (retryBase config claim.attempts + retryJitter sha256 config claim) u128Max) u64Max)).toNat * 1000000 := rfl
  rw [nanos,inside]
  congr 1
  exact UInt64.toNat_ofNat_of_lt' small

theorem retryBase_mono {later : Nat} (order : attempts ≤ later) : retryBase config attempts ≤ retryBase config later := by
  have power : 2 ^ min (attempts - 1) 31 ≤ 2 ^ min (later - 1) 31 := Nat.pow_le_pow_right (by decide) (by omega)
  have product := Nat.mul_le_mul_left config.initialRetryDelay.asMillis power
  rw [retryBase_eq,retryBase_eq]
  omega

/-- The whole milliseconds never pass the ideal delay. -/
theorem retryBase_ideal : retryBase config attempts * 1000000 ≤ idealDelay config attempts := by
  have power : 2 ^ min (attempts - 1) 31 ≤ 2 ^ (attempts - 1) := Nat.pow_le_pow_right (by decide) (Nat.min_le_left _ _)
  have initial := Nat.div_mul_le_self config.initialRetryDelay.nanos 1000000
  have maximum := Nat.div_mul_le_self config.maximumRetryDelay.nanos 1000000
  have product := Nat.mul_le_mul initial power
  rw [Nat.mul_right_comm] at product
  rw [retryBase_eq,idealDelay,StdDuration.asMillis,StdDuration.asMillis]
  exact Nat.le_min.mpr ⟨(Nat.mul_le_mul_right _ (Nat.min_le_left _ _)).trans product,
    (Nat.mul_le_mul_right _ (Nat.min_le_right _ _)).trans maximum⟩

theorem validate_ok (accepted : config.validate = .ok ()) : config.initialRetryDelay.nanos ≠ 0 ∧
    config.initialRetryDelay.nanos ≤ config.maximumRetryDelay.nanos ∧ config.retryJitterPercent.toNat ≤ 100 := by
  simp only [OutboxDispatcherConfig.validate,bind_ok_iff,ensure_ok_iff] at accepted
  obtain ⟨_, _, _, _, _, _, _, _, _, ⟨nonzero, order⟩, _, _, _, _, _, percent, _⟩ := accepted
  exact ⟨nonzero, order, percent⟩

/-! Settings that fit are safe -/

theorem idealDelay_lt (fits : RetryFits config attempts) :
    idealDelay config attempts < (retryBase config attempts + 1) * 1000000 := by
  have maximum : config.maximumRetryDelay.nanos < (config.maximumRetryDelay.asMillis + 1) * 1000000 := by
    unfold StdDuration.asMillis; omega
  rw [retryBase_eq,idealDelay]
  rcases fits.nothingLost with capped | ⟨few, whole⟩
  · rw [Nat.min_eq_right capped]
    exact Nat.lt_of_le_of_lt (Nat.min_le_right _ _) maximum
  · have same : min (attempts - 1) 31 = attempts - 1 := by omega
    have initial : config.initialRetryDelay.nanos * 2 ^ (attempts - 1) <
        (config.initialRetryDelay.asMillis * 2 ^ (attempts - 1) + 1) * 1000000 := by
      have parts := Nat.div_add_mod config.initialRetryDelay.nanos 1000000
      have scaled := congrArg (· * 2 ^ (attempts - 1)) parts
      simp only [Nat.add_mul,Nat.mul_assoc] at scaled
      unfold StdDuration.asMillis
      generalize config.initialRetryDelay.nanos * 2 ^ (attempts - 1) = delay at scaled ⊢
      generalize config.initialRetryDelay.nanos / 1000000 * 2 ^ (attempts - 1) = millis at scaled ⊢
      generalize config.initialRetryDelay.nanos % 1000000 * 2 ^ (attempts - 1) = lost at scaled whole
      omega
    rw [same]
    generalize config.initialRetryDelay.nanos * 2 ^ (attempts - 1) = delay at initial ⊢
    generalize config.initialRetryDelay.asMillis * 2 ^ (attempts - 1) = millis at initial ⊢
    omega

theorem retryBase_pos (accepted : config.validate = .ok ()) (whole : 1000000 ≤ config.initialRetryDelay.nanos) :
    0 < retryBase config attempts := by
  obtain ⟨_, order, _⟩ := validate_ok accepted
  have initial : 0 < config.initialRetryDelay.asMillis := by unfold StdDuration.asMillis; omega
  have maximum : 0 < config.maximumRetryDelay.asMillis := by unfold StdDuration.asMillis; omega
  rw [retryBase_eq]
  exact Nat.lt_min.mpr ⟨Nat.mul_pos initial (Nat.two_pow_pos _), maximum⟩

theorem retrySafe_of_fits (accepted : config.validate = .ok ()) (fits : RetryFits config claim.attempts) :
    RetrySafe sha256 config claim := by
  have jitter : retryJitter sha256 config claim ≤ _ := retryJitter_le
  have inChrono := fits.inChrono
  have positive : 0 < retryBase config claim.attempts := retryBase_pos accepted fits.wholeMillis
  have delay : (retryDelay sha256 config claim).nanos =
      (retryBase config claim.attempts + retryJitter sha256 config claim) * 1000000 := by
    have small : retryBase config claim.attempts + retryJitter sha256 config claim ≤ u64Max := by
      unfold u64Max; unfold i64MaxNat at inChrono; omega
    rw [retryDelay_nanos,Nat.min_eq_left small]
  refine ⟨?_, ?_, ?_, ?_, ?_⟩
  · omega
  · have ideal := idealDelay_lt fits
    omega
  · have ideal : retryBase config claim.attempts * 1000000 * (100 + config.retryJitterPercent.toNat) ≤ _ :=
      Nat.mul_le_mul_right _ retryBase_ideal
    have whole : (retryBase config claim.attempts + retryJitter sha256 config claim) * 100 ≤
        retryBase config claim.attempts * (100 + config.retryJitterPercent.toNat) := by
      rw [Nat.mul_add]; omega
    have scaled := Nat.mul_le_mul_right 1000000 whole
    rw [Nat.mul_right_comm] at scaled
    rw [Nat.mul_right_comm] at ideal
    rw [delay]
    omega
  · intro none later order
    have base : retryBase config claim.attempts ≤ retryBase config later.attempts := retryBase_mono order
    have small : retryBase config claim.attempts ≤ u64Max := by unfold u64Max; unfold i64MaxNat at inChrono; omega
    rw [delay,retryDelay_nanos,retryJitter_none none,retryJitter_none none,Nat.add_zero,Nat.add_zero]
    exact Nat.mul_le_mul_right _ (Nat.le_min.mpr ⟨base, small⟩)
  · have held : (retryDelay sha256 config claim).nanos ≤ i64MaxNat * 1000000 := by omega
    rw [retryWait,StdDuration.toChrono,if_pos held]
    rfl

/-! .. and no others -/

/-- A digest whose first eight bytes are the sample. -/
def digestOf (sample : Nat) : Vector UInt8 32 := ⟨(Host.littleEndian 32 sample).toArray, rfl⟩

theorem retrySample_digestOf {sample : Nat} (small : sample ≤ u64Max) :
    retrySample (fun _ => digestOf sample) claim = sample := by
  simp only [retrySample,digestOf,Host.littleEndian,Vector.toList,List.take,fromLittleEndian,UInt8.toNat_ofNat']
  unfold u64Max at small
  omega

theorem retryJitter_digestOf {sample : Nat} (small : sample ≤ u64Max)
    (inside : sample ≤ retryBase config claim.attempts * config.retryJitterPercent.toNat / 100) :
    retryJitter (fun _ => digestOf sample) config claim = sample := by
  rw [retryJitter,retryJitterLimit_eq,retrySample_digestOf small]
  split
  · omega
  · exact Nat.mod_eq_of_lt (Nat.lt_succ_of_le inside)

/-- Without jitter the delay is at least the ideal one only where nothing gets lost. -/
theorem nothingLost_of_safe (whole : 1000000 ≤ config.initialRetryDelay.nanos)
    (safe : RetrySafe (fun _ => digestOf 0) config claim) :
    config.maximumRetryDelay.asMillis ≤ config.initialRetryDelay.asMillis * 2 ^ min (claim.attempts - 1) 31 ∨
      (claim.attempts ≤ 32 ∧ config.initialRetryDelay.nanos % 1000000 * 2 ^ (claim.attempts - 1) < 1000000) := by
  have jitter : retryJitter (fun _ => digestOf 0) config claim = 0 :=
    retryJitter_digestOf (Nat.zero_le _) (Nat.zero_le _)
  have atLeast := safe.atLeast
  rw [retryDelay_nanos,jitter,Nat.add_zero] at atLeast
  rcases Nat.lt_or_ge (config.initialRetryDelay.asMillis * 2 ^ min (claim.attempts - 1) 31)
    config.maximumRetryDelay.asMillis with below | capped
  swap
  · exact .inl capped
  right
  have base : retryBase config claim.attempts = config.initialRetryDelay.asMillis * 2 ^ min (claim.attempts - 1) 31 := by
    rw [retryBase_eq,Nat.min_eq_left (Nat.le_of_lt below)]
  have delay : idealDelay config claim.attempts <
      (config.initialRetryDelay.asMillis * 2 ^ min (claim.attempts - 1) 31 + 1) * 1000000 := by
    rw [base] at atLeast
    omega
  have maximum : (config.initialRetryDelay.asMillis * 2 ^ min (claim.attempts - 1) 31 + 1) * 1000000 ≤
      config.maximumRetryDelay.nanos :=
    (Nat.mul_le_mul_right _ below).trans (Nat.div_mul_le_self _ _)
  have initial : config.initialRetryDelay.nanos * 2 ^ (claim.attempts - 1) <
      (config.initialRetryDelay.asMillis * 2 ^ min (claim.attempts - 1) 31 + 1) * 1000000 := by
    unfold idealDelay at delay
    omega
  have parts := Nat.div_add_mod config.initialRetryDelay.nanos 1000000
  have scaled := congrArg (· * 2 ^ (claim.attempts - 1)) parts
  simp only [Nat.add_mul,Nat.mul_assoc] at scaled
  have positive : 0 < config.initialRetryDelay.asMillis := by unfold StdDuration.asMillis; omega
  have few : claim.attempts ≤ 32 := by
    by_contra many
    have shift : min (claim.attempts - 1) 31 = 31 := by omega
    have power : 2 ^ 32 ≤ 2 ^ (claim.attempts - 1) := Nat.pow_le_pow_right (by decide) (by omega)
    have doubled := Nat.mul_le_mul (Nat.div_mul_le_self config.initialRetryDelay.nanos 1000000) power
    rw [shift] at initial
    unfold StdDuration.asMillis at initial positive
    omega
  refine ⟨few, ?_⟩
  have same : min (claim.attempts - 1) 31 = claim.attempts - 1 := by omega
  rw [same] at initial
  unfold StdDuration.asMillis at initial
  generalize config.initialRetryDelay.nanos * 2 ^ (claim.attempts - 1) = doubled at initial scaled
  generalize config.initialRetryDelay.nanos / 1000000 * 2 ^ (claim.attempts - 1) = millis at initial scaled
  generalize config.initialRetryDelay.nanos % 1000000 * 2 ^ (claim.attempts - 1) = lost at scaled ⊢
  omega

/-- The largest jitter still converts only where the sum fits. -/
theorem inChrono_of_safe (accepted : config.validate = .ok ())
    (safe : ∀ sample, RetrySafe (fun _ => digestOf sample) config claim) :
    retryBase config claim.attempts + retryBase config claim.attempts * config.retryJitterPercent.toNat / 100 ≤ i64MaxNat := by
  obtain ⟨_, _, percent⟩ := validate_ok accepted
  have converts : ∀ sample, (retryDelay (fun _ => digestOf sample) config claim).nanos ≤ i64MaxNat * 1000000 := by
    intro sample
    have converted := (safe sample).converts
    rw [retryWait,StdDuration.toChrono] at converted
    split at converted
    · assumption
    · cases converted
  have most : retryBase config claim.attempts * config.retryJitterPercent.toNat ≤ retryBase config claim.attempts * 100 :=
    Nat.mul_le_mul_left _ percent
  generalize limitIs : retryBase config claim.attempts * config.retryJitterPercent.toNat / 100 = limit
  have least := converts 0
  rw [retryDelay_nanos,retryJitter_digestOf (Nat.zero_le _) (Nat.zero_le _)] at least
  have small : limit ≤ u64Max := by
    unfold u64Max; unfold u64Max i64MaxNat at least; omega
  have largest := converts limit
  rw [retryDelay_nanos,retryJitter_digestOf small (by omega)] at largest
  unfold u64Max i64MaxNat at largest
  unfold i64MaxNat
  omega

/-- Whatever the digests are, an accepted configuration waits safely before the next try of a claim
exactly when it fits the attempts made. -/
theorem retry_safe (config : OutboxDispatcherConfig) (accepted : config.validate = .ok ()) (claim : TurnOutboxRecord) :
    (∀ sha256, RetrySafe sha256 config claim) ↔ RetryFits config claim.attempts := by
  constructor
  · intro safe
    have whole : 1000000 ≤ config.initialRetryDelay.nanos := by
      by_contra short
      have nothing : retryBase config claim.attempts = 0 := by
        have initial : config.initialRetryDelay.asMillis = 0 := by unfold StdDuration.asMillis; omega
        rw [retryBase_eq,initial,Nat.zero_mul,Nat.zero_min]
      have positive := (safe fun _ => digestOf 0).positive
      rw [retryDelay_nanos,retryJitter_digestOf (Nat.zero_le _) (Nat.zero_le _),nothing] at positive
      exact absurd positive (Nat.lt_irrefl 0)
    exact ⟨whole, nothingLost_of_safe whole (safe _), inChrono_of_safe accepted fun sample => safe _⟩
  · exact fun fits sha256 => retrySafe_of_fits accepted fits

/-- SHA-256. -/
def sha256Digest (bytes : List UInt8) : Vector UInt8 32 := ⟨(Sha256.digest bytes).toArray, Sha256.digest_length bytes⟩

def claimAt (attempts : Nat) : TurnOutboxRecord where
  tenantId := "tenant"
  outboxId := "outbox-1"
  turnId := "turn-1"
  revision := 3
  eventType := "channel.sent"
  effectKind := "ledger_append"
  idempotencyMode := "exactly_once"
  payloadJson := "null"
  payloadHash := ""
  createdAtMs := sampleNow.millis
  status := .leased
  attempts := attempts
  availableAtMs := sampleNow.millis
  leaseOwner := some "worker-0"
  leaseToken := some "token"
  leaseUntilMs := some sampleDeadline.millis
  deliveredAtMs := none
  ledgerEventId := none
  lastError := none
  updatedAtMs := sampleNow.millis
  commitOrdinal := 1
  orderOrigin := .transactional
  payload := .null
  verified := none
  availableAt := sampleNow
  leaseUntil := some sampleDeadline
  deliveredAt := none
  createdAt := sampleNow
  updatedAt := sampleNow

theorem standard_safe : RetrySafe sha256Digest .standard (claimAt 3) :=
  (retry_safe .standard (by decide) (claimAt 3)).mpr ⟨by decide, by decide, by decide⟩ sha256Digest

/-- Retries from 999999 nanoseconds on. -/
def briefRetries : OutboxDispatcherConfig := { OutboxDispatcherConfig.standard with
  initialRetryDelay := ⟨999999, by decide⟩ }

/-- Retries from 1.5 milliseconds on, without jitter. -/
def brokenRetries : OutboxDispatcherConfig := { OutboxDispatcherConfig.standard with
  initialRetryDelay := ⟨1500000, by decide⟩
  retryJitterPercent := 0
  maximumAttempts := 100 }

/-- Retries after `u64::MAX` milliseconds, without jitter. -/
def endlessRetries : OutboxDispatcherConfig := { OutboxDispatcherConfig.standard with
  initialRetryDelay := .fromMillis 18446744073709551615
  maximumRetryDelay := .fromMillis 18446744073709551615
  retryJitterPercent := 0 }

/-- Three accepted configurations: one retries at once, one waits 512 milliseconds in place of 768 at
the tenth attempt, and with one the conversion panics. -/
theorem retry_unsafe : briefRetries.validate = .ok () ∧ (retryDelay sha256Digest briefRetries (claimAt 1)).nanos = 0 ∧
    brokenRetries.validate = .ok () ∧ (retryDelay sha256Digest brokenRetries (claimAt 10)).nanos = 512000000 ∧
    idealDelay brokenRetries 10 = 768000000 ∧
    endlessRetries.validate = .ok () ∧ retryWait sha256Digest endlessRetries (claimAt 1) = none := by
  refine ⟨by decide, ?_, by decide, ?_, by decide, by decide, ?_⟩
  · have jitter : retryJitter sha256Digest briefRetries (claimAt 1) = 0 :=
      Nat.le_zero.mp (retryJitter_le.trans (by decide))
    rw [retryDelay_nanos,jitter]
    decide
  · rw [retryDelay_nanos,retryJitter_none rfl]
    decide
  · have beyond : ¬ (retryDelay sha256Digest endlessRetries (claimAt 1)).nanos ≤ i64MaxNat * 1000000 := by
      rw [retryDelay_nanos,retryJitter_none rfl]
      decide
    rw [retryWait,StdDuration.toChrono,if_neg beyond]

end Zaion.Turn
