/-
# `LoyaltyTransfer.Settings` — the configuration the service accepts

`app/config.py`, the settings the modelled code reads, with their defaults and
the validation that runs at startup, and the wiring of `app/api/deps.py`.
-/
import LoyaltyTransfer.Engine
import LoyaltyTransfer.Seed

namespace LoyaltyTransfer

structure Settings where
  partnerRetryMaxAttempts : Int := 3
  partnerRetryBaseDelayMs : Int := 100
  partnerRetryMaxDelayMs : Int := 1000
  partnerTotalDeadlineSeconds : Time := 8
  circuitBreakerFailureThreshold : Int := 5
  circuitBreakerCooldownSeconds : Time := 30
  idempotencyTtlSeconds : Int := 86400
  idempotencyLockTtlMs : Int := 30000
  maxTransferPoints : Int := 1000000
  reconciliationInitialDelaySeconds : Int := 10
  reconcilerBatchSize : Int := 50
  reconciliationLeaseSeconds : Int := 60
  reconciliationStuckAfterSeconds : Int := 60
  reconciliationNotFoundGraceSeconds : Int := 60
  reconciliationMaxAttempts : Int := 5
  reconciliationBackoffBaseSeconds : Int := 10
  reconciliationBackoffMaxSeconds : Int := 600

/-- The `PositiveInt` and `PositiveFloat` fields. -/
def Settings.positive (s : Settings) : Prop :=
  0 < s.partnerRetryMaxAttempts ∧ 0 < s.partnerRetryBaseDelayMs ∧ 0 < s.partnerRetryMaxDelayMs ∧
    0 < s.partnerTotalDeadlineSeconds ∧ 0 < s.circuitBreakerFailureThreshold ∧
    0 < s.circuitBreakerCooldownSeconds ∧ 0 < s.idempotencyTtlSeconds ∧
    0 < s.idempotencyLockTtlMs ∧ 0 < s.maxTransferPoints ∧
    0 < s.reconciliationInitialDelaySeconds ∧ 0 < s.reconcilerBatchSize ∧
    0 < s.reconciliationLeaseSeconds ∧ 0 < s.reconciliationStuckAfterSeconds ∧
    0 < s.reconciliationNotFoundGraceSeconds ∧ 0 < s.reconciliationMaxAttempts ∧
    0 < s.reconciliationBackoffBaseSeconds ∧ 0 < s.reconciliationBackoffMaxSeconds

instance (s : Settings) : Decidable s.positive := inferInstanceAs (Decidable (_ ∧ _))

/-- `_reconciliation_windows_outlast_partner_calls`. -/
def Settings.windowsOutlastPartnerCalls (s : Settings) : Prop :=
  s.partnerTotalDeadlineSeconds < s.reconciliationStuckAfterSeconds ∧
    s.partnerTotalDeadlineSeconds < s.reconciliationNotFoundGraceSeconds ∧
    s.partnerTotalDeadlineSeconds < s.reconciliationLeaseSeconds

instance (s : Settings) : Decidable s.windowsOutlastPartnerCalls :=
  inferInstanceAs (Decidable (_ ∧ _))

/-- Settings the service starts with. -/
structure Settings.Accepted (s : Settings) : Prop where
  positive : s.positive
  windows : s.windowsOutlastPartnerCalls

/-- The policy with these durations. -/
def Settings.policy (s : Settings) : ReconciliationPolicy where
  lease := s.reconciliationLeaseSeconds
  stuckAfter := s.reconciliationStuckAfterSeconds
  notFoundGrace := s.reconciliationNotFoundGraceSeconds
  maxAttempts := s.reconciliationMaxAttempts
  backoffBase := s.reconciliationBackoffBaseSeconds
  backoffMax := s.reconciliationBackoffMaxSeconds

/-- `timedelta(seconds=seconds)`, of a positive number. -/
def timedelta (seconds : Int) : Except Fault Time :=
  if timedeltaLimit ≤ seconds then .error (.runtime "OverflowError") else .ok seconds

/-- `ReconciliationPolicy.from_settings`. -/
def ReconciliationPolicy.fromSettings (s : Settings) : Except Fault ReconciliationPolicy := do
  let lease ← timedelta s.reconciliationLeaseSeconds
  let stuckAfter ← timedelta s.reconciliationStuckAfterSeconds
  let notFoundGrace ← timedelta s.reconciliationNotFoundGraceSeconds
  let backoffBase ← timedelta s.reconciliationBackoffBaseSeconds
  let backoffMax ← timedelta s.reconciliationBackoffMaxSeconds
  pure {
    lease, stuckAfter, notFoundGrace, backoffBase, backoffMax
    maxAttempts := s.reconciliationMaxAttempts }

/-- A policy that can be built has the durations of the settings. -/
theorem fromSettings_ok {s : Settings} {policy : ReconciliationPolicy}
    (h : ReconciliationPolicy.fromSettings s = .ok policy) : policy = s.policy := by
  simp only [ReconciliationPolicy.fromSettings, timedelta, bind, Except.bind, pure,
    Except.pure] at h
  split_ifs at h
  cases h
  rfl

/-- The services as `deps.py` builds them. -/
def Settings.config (s : Settings) (sha256 : String → String) : Config where
  maxTransferPoints := some s.maxTransferPoints
  verificationDelay := s.reconciliationInitialDelaySeconds
  partnerDeadline := s.partnerTotalDeadlineSeconds
  policy := s.policy
  ttls := ⟨s.idempotencyTtlSeconds, s.idempotencyLockTtlMs / 1000⟩
  sha256 := sha256

theorem defaults_accepted : ({} : Settings).Accepted where
  positive := by decide +kernel
  windows := by decide +kernel

theorem defaults_policy : ReconciliationPolicy.fromSettings {} = .ok ({} : Settings).policy := by
  have hbuilt : (ReconciliationPolicy.fromSettings {}).isOk = true := by decide +kernel
  cases h : ReconciliationPolicy.fromSettings {} with
  | error f => rw [h] at hbuilt; cases hbuilt
  | ok policy => rw [fromSettings_ok h]

/-! ## A fresh deployment -/

/-- SHA-256 on the texts that the sample requests below are digested from. -/
def sampleSha256 (text : String) : String :=
  if text = "POST\n/v1/transfers\n\x7b\"destination_program\":\"SKYWARD_MILES\"," ++
      "\"source_points\":1000,\"source_program\":\"NOVA_REWARDS\"\x7d" then
    "1ed56ecc569eacb1049549683f44b9f9978cdf0c5ad2380b89de84ebcac94aa1"
  else if text = "POST\n/v1/transfers\n\x7b\"destination_program\":\"STAYWELL_POINTS\"," ++
      "\"source_points\":2000,\"source_program\":\"NOVA_REWARDS\"\x7d" then
    "9c9b9d993a9885f91a890fc0dd05c6a0cb40ff4754e16cc6f4dcea076b8baacb"
  else if text = "POST\n/v1/transfers\n\x7b\"destination_program\":\"SKYWARD_MILES\"," ++
      "\"source_points\":250000,\"source_program\":\"NOVA_REWARDS\"\x7d" then
    "39e1a9fe10d3a229daf116fb548aadd9cdad26ed595fde775ed5666e4e098aba"
  else text

/-- The default settings. -/
def sampleConfig : Config := ({} : Settings).config sampleSha256

/-- The system over the seeded database, before the first request. -/
def freshState : State := ⟨⟨seedDb, ⟨[], 1⟩, [], []⟩, [], []⟩

def sampleBody : TransferRequest := ⟨"NOVA_REWARDS", "SKYWARD_MILES", 1000⟩

def otherBody : TransferRequest := ⟨"NOVA_REWARDS", "STAYWELL_POINTS", 2000⟩

/-- All that `user_alice` has, and more than `user_bob` has. -/
def largeBody : TransferRequest := ⟨"NOVA_REWARDS", "SKYWARD_MILES", 250000⟩

def sampleTransferId : String := "tr_00000000000000000000000001"

/-- The request arrives as request `i` and claims its key at instant `moment`. -/
def admission (i : Nat) (userId key : String) (body : TransferRequest) (moment : Time) :
    List Action :=
  [.arrive userId key body, .request i (.statement ⟨.acquired, moment⟩),
    .request i (.statement ⟨.acquired, moment⟩), .request i (.statement ⟨.acquired, moment⟩)]

end LoyaltyTransfer
